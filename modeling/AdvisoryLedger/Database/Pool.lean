import AdvisoryLedger.Database.Config
import AdvisoryLedger.Json.Access

namespace AdvisoryLedger

structure ConnectionParameters where
  host : Json
  port : Json
  database : Json
  user : Json
  password : Json

structure PoolParameters where
  connection : ConnectionParameters
  minSize : Json
  maxSize : Json

namespace ConnectionParameters

def ofConfig (config : Json) : Except Failure ConnectionParameters := do
  let host ← config.required "host"
  let port ← config.required "port"
  let database ← config.required "database"
  let user ← config.required "user"
  let password ← config.required "password"
  .ok { host, port, database, user, password }

def choose (vars : Environment) (asked : Option String) (given : Json) : Except Failure ConnectionParameters := do
  ofConfig (← DatabaseConfig.choose vars asked given)

def toTable (c : ConnectionParameters) : Table String Json :=
  [("host", c.host), ("port", c.port), ("database", c.database), ("user", c.user),
    ("password", c.password)]

end ConnectionParameters

namespace PoolParameters

/-- The order of numbers, exact also between whole numbers and fractions. -/
def lessNumber : Json.Number → Json.Number → Bool
  | .whole a, .whole b => a < b
  | .whole a, .broken b => b.toRat?.elim (b = .infinity false) fun b => (a : Rat) < b
  | .broken a, .whole b => a.toRat?.elim (a = .infinity true) fun a => a < (b : Rat)
  | .broken a, .broken b => a.less b

/-- Numbers are compared with numbers and texts with texts. -/
def less (a b : Json) : Except Failure Bool :=
  match a, b with
  | .text a, .text b => .ok (a < b)
  | a, b =>
    match a.number?, b.number? with
    | some a, some b => .ok (lessNumber a b)
    | _, _ => .error .wrongKind

def memberOr (name : String) (default : Json) : Json → Except Failure Json
  | .object members => .ok ((Json.lookup name members).getD default)
  | _ => .error .noSuchMember

def ofConfig (config : Json) : Except Failure PoolParameters := do
  let maxSize ← memberOr "pool_size" (.int 10) config
  let minSize ← memberOr "min_connections" (.int 1) config
  let minSize := if ← less maxSize minSize then maxSize else minSize
  let connection ← ConnectionParameters.ofConfig config
  .ok { connection, minSize, maxSize }

def choose (vars : Environment) (asked : Option String) (given : Json) : Except Failure PoolParameters := do
  ofConfig (← DatabaseConfig.choose vars asked given)

def toTable (p : PoolParameters) : Table String Json :=
  p.connection.toTable ++ [("min_size", p.minSize), ("max_size", p.maxSize)]

end PoolParameters

/-- The address of a database; a masked one does not show the password, nor need it. -/
def databaseUrl (config : Json) (masked : Bool) : Except Failure String := do
  let password ← if masked then .ok "***" else (config.required "password").map Json.display
  let user ← config.required "user"
  let host ← config.required "host"
  let port ← config.required "port"
  let database ← config.required "database"
  .ok ("postgresql://" ++ user.display ++ ":" ++ password ++ "@" ++ host.display ++ ":" ++
    port.display ++ "/" ++ database.display)

def DatabaseConfig.chooseUrl (vars : Environment) (asked : Option String) (masked : Bool)
    (given : Json) :
    Except Failure String := do
  databaseUrl (← choose vars asked given) masked

end AdvisoryLedger
