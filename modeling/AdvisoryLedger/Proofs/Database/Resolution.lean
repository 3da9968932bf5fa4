import AdvisoryLedger.Database.Config
import AdvisoryLedger.Document.Advisory
import AdvisoryLedger.Proofs.Text.Integer

namespace AdvisoryLedger.DatabaseConfig

/-- The variables that go before the settings and the members they are for, in the order in which
they are asked. -/
def mappings : Table String String := [
  ("DB_HOST", "host"), ("DB_PORT", "port"), ("DB_NAME", "database"), ("DB_USER", "user"),
  ("DB_PASSWORD", "password"), ("DB_POOL_SIZE", "pool_size"),
    ("DB_MIN_CONNECTIONS", "min_connections")]

def numberKeys : List String := ["port", "pool_size", "min_connections"]

def requiredKeys : List String := ["host", "port", "database", "user", "password"]

/-- What the text of a variable says for a member. -/
def Says (key text : String) (v : Json) : Prop :=
  if key ∈ numberKeys then ∃ n, Text.Denotes text n ∧ v = .int n else v = .text text

/-- Every one of these variables that is not empty says something. -/
def AreSpelt (vars : Environment) (ms : Table String String) : Prop :=
  ∀ m ∈ ms, ∀ text, vars.nonempty? m.1 = some text → ∃ v, Says m.2 text v

def IsFirstMisspelt (vars : Environment) (name text : String) : Prop := ∃ before key after,
  mappings = before ++ (name, key) :: after ∧ AreSpelt vars before ∧
    vars.nonempty? name = some text ∧
    ¬∃ v, Says key text v

/-- A member as its variable says, or as the setting is; there are members without a setting. -/
def Tells (s : Settings) (vars : Environment) (name key : String) (v : Option Json) : Prop :=
  match vars.nonempty? name with
  | some text => ∃ w, v = some w ∧ Says key text w
  | none => v = s.toTable.get? name

/-- What is asked for a password that neither its variable nor the settings give. -/
def lastResort? (vars : Environment) (environment : String) : Option String :=
  ["DB_PASSWORD_" ++ Text.upper environment, "POSTGRES_PASSWORD_" ++ Text.upper environment,
    "POSTGRES_PASSWORD"].findSome? vars.nonempty?

/-- The configuration that variables and settings add up to. -/
structure Follows (s : Settings) (vars : Environment) (environment : String)
    (config : Json) : Prop where
  kind : config.member? "environment" = some (.text environment)
  told : ∀ m ∈ mappings, m.2 ≠ "password" → Tells s vars m.1 m.2 (config.member? m.2)
  password : ∃ given, Tells s vars "DB_PASSWORD" "password" (some given) ∧
    config.member? "password" =
    some (if given.isTruthy then given else .text ((lastResort? vars environment).getD ""))

/-- The required members that are absent, empty or zero. -/
def lacking (config : Json) : List String :=
  requiredKeys.filter fun key => !(config.member? key).any Json.isTruthy

theorem missing_eq (c : DatabaseConfig) : c.missing = lacking c.toJson := by
  have hkeys (keys : List String) (test : String → Bool) :
      (keys.map fun key => (key, test key)).filterMap
        (fun field => if field.2 then some field.1 else none) =
        keys.filter test := by
    induction keys with
    | nil => rfl
    | cons key rest ih => cases h : test key <;> simp [h, ih]
  rw [lacking, ← hkeys, missing]
  congr 1
  have hhost : c.toJson.member? "host" = some (.text c.host) := rfl
  have hport : c.toJson.member? "port" = some (.int c.port) := rfl
  have hdatabase : c.toJson.member? "database" = some (.text c.database) := rfl
  have huser : c.toJson.member? "user" = some (.text c.user) := rfl
  have hpassword : c.toJson.member? "password" = some (.text c.password) := rfl
  simp [requiredKeys, hhost, hport, hdatabase, huser, hpassword, Json.isTruthy, bne]

section Members

variable {s : Settings} {vars : Environment} {name key : String}

theorem says_text (h : key ∉ numberKeys) (text : String) :
    Says key text (.text text) := by rw [Says, if_neg h]

theorem tells_text (h : key ∉ numberKeys) (s : Settings) (vars : Environment) (name : String) :
    Tells s vars name key (((vars.nonempty? name).map Json.text).or (s.toTable.get? name)) := by
  unfold Tells
  cases vars.nonempty? name with
  | none => rfl
  | some text => exact ⟨_, rfl, says_text h text⟩

/-- A variable for a whole number says none, or it is read as what it says. -/
theorem integer?_cases (h : key ∈ numberKeys) (vars : Environment) (name : String) :
    (∃ text, vars.nonempty? name = some text ∧ (¬∃ v, Says key text v) ∧
      vars.integer? name = .error (.notAnInteger name text)) ∨
    ∃ n, vars.integer? name = .ok n ∧ AreSpelt vars [(name, key)] ∧
      ∀ s, Tells s vars name key ((n.map Json.int).or (s.toTable.get? name)) := by
  simp only [Environment.integer?, AreSpelt, List.forall_mem_singleton, Tells, Says, if_pos h]
  cases vars.nonempty? name with
  | none => exact .inr ⟨none, rfl, by simp, fun s => rfl⟩
  | some text =>
    cases hread : Text.readInt? text with
    | none =>
      refine .inl ⟨text, rfl, ?_, by simp only [hread]⟩
      rintro ⟨-, n, hn, -⟩
      rw [Text.readInt?_eq_some_iff.mpr hn] at hread
      cases hread
    | some n =>
      have hn := Text.readInt?_eq_some_iff.mp hread
      refine .inr ⟨some n, by simp only [hread], ?_, fun s => ⟨.int n, rfl, n, hn, rfl⟩⟩
      rintro text' htext
      cases htext
      exact ⟨.int n, n, hn, rfl⟩

theorem tells_of_setting {α : Type} {f : α → Json} {said : Option α} {setting : α}
    (h : Tells s vars name key ((said.map f).or (s.toTable.get? name)))
    (hs : s.toTable.get? name = some (f setting)) :
    Tells s vars name key (some (f (said.getD setting))) := by
  rwa [hs, Option.or_some, Option.getD_map] at h

end Members

theorem areSpelt_append {vars : Environment} {ms ns : Table String String} (hms : AreSpelt vars ms)
    (hns : AreSpelt vars ns) : AreSpelt vars (ms ++ ns) := fun m hm =>
  (List.mem_append.mp hm).elim (hms m) (hns m)

theorem areSpelt_text {vars : Environment} {ms : Table String String}
    (h : ∀ m ∈ ms, m.2 ∉ numberKeys) :
    AreSpelt vars ms := fun m hm text _ => ⟨_, says_text (h m hm) text⟩

theorem passwordFor_eq (s : Settings) (vars : Environment) (environment : String) : ∃ given,
    Tells s vars "DB_PASSWORD" "password" (some given) ∧
      Json.text (passwordFor s vars environment) =
      if given.isTruthy then given else .text ((lastResort? vars environment).getD "") := by
  refine ⟨((vars.nonempty? "DB_PASSWORD").map Json.text).getD (.ofText? s.databasePassword), ?_, ?_⟩
  · have h := tells_text (by decide : "password" ∉ numberKeys) s vars "DB_PASSWORD"
    have hsetting : s.toTable.get? "DB_PASSWORD" = some (.ofText? s.databasePassword) := rfl
    rw [hsetting] at h
    cases hv : vars.nonempty? "DB_PASSWORD" <;> simpa [hv] using h
  · have hchoice (g fallback : String) : Json.text (if g.isEmpty then fallback else g) =
        if (Json.text g).isTruthy then .text g else .text fallback := by
      cases hg : g.isEmpty <;> simp [Json.isTruthy, hg]
    unfold passwordFor
    cases vars.nonempty? "DB_PASSWORD" with
    | some text => exact hchoice text _
    | none =>
      cases s.databasePassword with
      | some setting => exact hchoice setting _
      | none => rfl

theorem tells_unique {s : Settings} {vars : Environment} {name key : String} {v w : Option Json}
    (hv : Tells s vars name key v) (hw : Tells s vars name key w) : v = w := by
  unfold Tells at hv hw
  cases htext : vars.nonempty? name with
  | none =>
    rw [htext] at hv hw
    exact hv.trans hw.symm
  | some text =>
    rw [htext] at hv hw
    obtain ⟨x, rfl, hx⟩ := hv
    obtain ⟨y, rfl, hy⟩ := hw
    unfold Says at hx hy
    split at hx
    · next hkey =>
      rw [if_pos hkey] at hy
      obtain ⟨m, hm, rfl⟩ := hx
      obtain ⟨n, hn, rfl⟩ := hy
      have hmn : some m = some n :=
        (Text.readInt?_eq_some_iff.mpr hm).symm.trans (Text.readInt?_eq_some_iff.mpr hn)
      rw [Option.some.inj hmn]
    · next hkey =>
      rw [if_neg hkey] at hy
      rw [hx, hy]

theorem follows_unique {s : Settings} {vars : Environment} {environment : String}
    {c d : DatabaseConfig}
    (hc : Follows s vars environment c.toJson)
    (hd : Follows s vars environment d.toJson) : c = d := by
  have htold (name key : String) (hm : (name, key) ∈ mappings) (hk : key ≠ "password") :
      c.toJson.member? key =
        d.toJson.member? key := tells_unique (hc.told _ hm hk) (hd.told _ hm hk)
  obtain ⟨given, hgiven, hpassword⟩ := hc.password
  obtain ⟨given', hgiven', hpassword'⟩ := hd.password
  obtain rfl := Option.some.inj (tells_unique hgiven hgiven')
  have hkind := hc.kind.trans hd.kind.symm
  have hhost := htold "DB_HOST" "host" (by decide) (by decide)
  have hport := htold "DB_PORT" "port" (by decide) (by decide)
  have hdatabase := htold "DB_NAME" "database" (by decide) (by decide)
  have huser := htold "DB_USER" "user" (by decide) (by decide)
  have hword := hpassword.trans hpassword'.symm
  have hpool := htold "DB_POOL_SIZE" "pool_size" (by decide) (by decide)
  have hleast := htold "DB_MIN_CONNECTIONS" "min_connections" (by decide) (by decide)
  obtain ⟨_, _, _, _, _, _, _, least⟩ := c
  obtain ⟨_, _, _, _, _, _, _, least'⟩ := d
  cases hkind
  cases hhost
  cases hport
  cases hdatabase
  cases huser
  cases hword
  cases hpool
  cases least <;> cases least' <;> cases hleast <;> rfl

/-- The configuration that is resolved unless a variable stands in the way. -/
def resolved (s : Settings) (vars : Environment) (environment : String)
    (port poolSize minConnections : Option Int) :
    DatabaseConfig where
  environment := environment
  host := (vars.nonempty? "DB_HOST").getD s.databaseHost
  port := port.getD s.databasePort
  database := (vars.nonempty? "DB_NAME").getD s.databaseName
  user := (vars.nonempty? "DB_USER").getD s.databaseUser
  password := passwordFor s vars environment
  poolSize := poolSize.getD s.poolSize
  minConnections := minConnections

theorem follows_resolved {s : Settings} {vars : Environment}
    {port poolSize minConnections : Option Int}
    (hport : Tells s vars "DB_PORT" "port" ((port.map Json.int).or (s.toTable.get? "DB_PORT")))
    (hpool : Tells s vars "DB_POOL_SIZE" "pool_size"
      ((poolSize.map Json.int).or (s.toTable.get? "DB_POOL_SIZE")))
    (hmin : Tells s vars "DB_MIN_CONNECTIONS" "min_connections"
      ((minConnections.map Json.int).or (s.toTable.get? "DB_MIN_CONNECTIONS")))
        (environment : String) :
    Follows s vars environment
      (resolved s vars environment port poolSize minConnections).toJson := by
  have htext (key : String) (h : key ∉ numberKeys) (name : String) := tells_text h s vars name
  refine ⟨rfl, ?_, ?_⟩
  · simp only [mappings, List.forall_mem_cons, List.not_mem_nil, false_implies, implies_true,
      and_true]
    refine ⟨fun _ => tells_of_setting (htext "host" (by decide) _) rfl,
      fun _ => tells_of_setting hport rfl,
      fun _ => tells_of_setting (htext "database" (by decide) _) rfl,
      fun _ => tells_of_setting (htext "user" (by decide) _) rfl, fun h => absurd rfl h,
      fun _ => tells_of_setting hpool rfl, fun _ => ?_⟩
    cases minConnections <;> exact hmin
  · obtain ⟨given, hgiven, hpassword⟩ := passwordFor_eq s vars environment
    exact ⟨given, hgiven, congrArg some hpassword⟩

/-- Whatever the variables, the settings and the kind of environment that is asked for, either the
first variable that says no whole number is named, or the one configuration that follows is there,
or all that it lacks is named. -/
theorem resolve_settles (s : Settings) (vars : Environment) (asked : Option String) :
    (∃ name text, IsFirstMisspelt vars name text ∧
      resolve s vars asked = .error (.notAnInteger name text)) ∨
    (AreSpelt vars mappings ∧
      ∃ c, (∀ d, Follows s vars (environmentKind s asked) d.toJson ↔ d = c) ∧
      resolve s vars asked =
        if lacking c.toJson = [] then .ok c
          else .error (.missingDatabaseFields (lacking c.toJson))) := by
  -- the members in front of and between the whole numbers are texts, of which none stands in the way
  have hfront : AreSpelt vars [("DB_HOST", "host")] := areSpelt_text (by decide)
  have hmiddle : AreSpelt vars [("DB_NAME", "database"), ("DB_USER", "user"),
      ("DB_PASSWORD", "password")] :=
    areSpelt_text (by decide)
  rcases integer?_cases (by decide : "port" ∈ numberKeys) vars "DB_PORT" with
    ⟨text, htext, hnone, herror⟩ | ⟨port, hport, hsport, htport⟩
  · exact .inl ⟨"DB_PORT", text, ⟨_, "port", _, rfl, hfront, htext, hnone⟩, by simp only [resolve, herror]; rfl⟩
  have hupTo := areSpelt_append (areSpelt_append hfront hsport) hmiddle
  rcases integer?_cases (by decide : "pool_size" ∈ numberKeys) vars "DB_POOL_SIZE" with
    ⟨text, htext, hnone, herror⟩ | ⟨poolSize, hpool, hspool, htpool⟩
  · exact .inl ⟨"DB_POOL_SIZE", text, ⟨_, "pool_size", _, rfl, hupTo, htext, hnone⟩,
      by simp only [resolve, hport, herror]; rfl⟩
  rcases integer?_cases (by decide : "min_connections" ∈ numberKeys) vars "DB_MIN_CONNECTIONS" with
    ⟨text, htext, hnone, herror⟩ | ⟨least, hleast, hsleast, htleast⟩
  · exact .inl ⟨"DB_MIN_CONNECTIONS", text,
      ⟨_, "min_connections", _, rfl, areSpelt_append hupTo hspool, htext, hnone⟩,
      by simp only [resolve, hport, hpool, herror]; rfl⟩
  refine .inr ⟨areSpelt_append (areSpelt_append hupTo hspool) hsleast,
    resolved s vars (environmentKind s asked) port poolSize least, ?_, ?_⟩
  · have hfollows := follows_resolved (htport s) (htpool s) (htleast s) (environmentKind s asked)
    exact fun d => ⟨fun hd => follows_unique hd hfollows, fun hd => hd ▸ hfollows⟩
  · simp only [← missing_eq, ← List.isEmpty_iff]
    simp only [resolve, hport, hpool, hleast]
    rfl

example : (resolve {} [("DB_PORT", " ٥٤_٣٢ "), ("POSTGRES_PASSWORD_TESTING", "secret")]
      (some "testing")).toOption.map
    (fun c => (c.port, c.password, c.minConnections)) =
      some (5432, "secret", none) := by decide +kernel

end AdvisoryLedger.DatabaseConfig
