import AdvisoryLedger.Proofs.Ledger.Desk
import AdvisoryLedger.Proofs.Reconcile.Stages

namespace AdvisoryLedger

namespace Ledger

variable {l m : Ledger} {κ : Int → Source × String}

/-- Each row has the natural key that goes with its id. -/
def KeyedBy (κ : Int → Source × String) (l : Ledger) : Prop :=
  ∀ id a, l.advisories.get? id = some a → a.naturalKey = κ id

/-- No advisory has two rows, and each row has the key that goes with its id. -/
structure Keyed (κ : Int → Source × String) (l : Ledger) : Prop where
  oneRowEach : l.OneRowEach
  keyedBy : l.KeyedBy κ

/-- A request that updates a row writes the natural key that is there. -/
def KeepsKey (l : Ledger) : Call → Prop
  | .updateAdvisory a => ∀ id b, a.id = some id → l.advisories.get? id = some b →
    a.naturalKey = b.naturalKey
  | _ => True

theorem keyed_empty (κ : Int → Source × String) : Keyed κ {} := by
  constructor
  · intro i j b c hb
    cases hb
  · intro id a ha
    cases ha

theorem passes_keyed (κ : Int → Source × String) : Passes (Keyed κ) := by
  intro l m _ _ ha _ h
  constructor
  · intro i j b c hb hc
    rw [ha.advisories] at hb hc
    exact h.oneRowEach i j b c hb hc
  · intro id b hb
    rw [ha.advisories] at hb
    exact h.keyedBy id b hb

theorem Keyed.congr {κ' : Int → Source × String} (hl : l.WellKept) (h : l.Keyed κ)
    (hκ : ∀ id, id < l.nextId → κ' id = κ id) : l.Keyed κ' := by
  refine ⟨h.oneRowEach, ?_⟩
  intro id a ha
  rw [hκ id (hl.advisories id a ha).2]
  exact h.keyedBy id a ha

theorem Keyed.perform (hl : l.WellKept) (h : l.Keyed κ) {call : Call} (hc : l.KeepsKey call)
    (hκ : ∀ a, call = .insertAdvisory a → κ l.nextId = a.naturalKey) {p : Performed call.Reply}
    (hp : l.perform call = .ok p) : p.ledger.Keyed κ := by
  cases performs_of_perform hp with
  | @insertAdvisory a ha =>
    refine ⟨h.oneRowEach.insert (b := { a with id := some l.nextId }) hl ha _, ?_⟩
    intro id b hb
    rw [Table.get?_put] at hb
    split at hb
    · next hid =>
      obtain rfl := Option.some.inj hb
      exact hid ▸ (hκ a rfl).symm
    · exact h.keyedBy id b hb
  | @updateAdvisory a previous id ha hprevious =>
    have hkey := hc id previous ha hprevious
    refine ⟨h.oneRowEach.update hprevious hkey, ?_⟩
    intro i b hb
    rw [Table.get?_put] at hb
    split at hb
    · next hid =>
      obtain rfl := Option.some.inj hb
      exact hkey.trans (hid ▸ h.keyedBy id previous hprevious)
    · exact h.keyedBy i b hb
  | _ => exact ⟨h.oneRowEach, h.keyedBy⟩

end Ledger

namespace Desk

variable {d : Desk} {κ : Int → Source × String}

/-- Every update in the course of moves writes the natural key of the row that it goes over. -/
def KeepsKeys : Desk → List Move → Prop
  | _, [] => True
  | d, m :: rest => (∀ c, m = .call c → d.ledger.KeepsKey c) ∧ (d.move m).KeepsKeys rest

/-- The ledger has come through the first so many moves. -/
def after (d : Desk) (moves : List Move) (n : Nat) : Ledger := (d.play (moves.take n)).ledger

theorem Keeps.keyed_move (h : d.Keeps (Ledger.Keyed κ)) (m : Move)
    (hd : m = .abort → d.isTrue = true) (hm : ∀ c, m = .call c → d.ledger.KeepsKey c) :
    ∃ κ', (∀ id, id < d.ledger.nextId → κ' id = κ id) ∧ (d.move m).Keeps (Ledger.Keyed κ') := by
  obtain ⟨κ', hold, hnew⟩ : ∃ κ' : Int → Source × String,
      (∀ id, id < d.ledger.nextId → κ' id = κ id) ∧
      ∀ a, m = .call (.insertAdvisory a) → κ' d.ledger.nextId = a.naturalKey := by
    by_cases hi : ∃ a, m = .call (.insertAdvisory a)
    · obtain ⟨a, rfl⟩ := hi
      refine ⟨Function.update κ d.ledger.nextId a.naturalKey, ?_, ?_⟩
      · intro id hid
        exact Function.update_of_ne (Int.ne_of_lt hid) _ _
      · rintro b ⟨⟩
        exact Function.update_self ..
    · exact ⟨κ, fun _ _ => rfl, fun a ha => absurd ⟨a, ha⟩ hi⟩
  have h' : d.Keeps (Ledger.Keyed κ') := h.imp fun l hl hn hk => hk.congr hl (hn ▸ hold)
  refine ⟨κ', hold, h'.move (Ledger.passes_keyed κ') m hd ?_⟩
  rintro c p rfl hp
  exact h'.now.perform h'.wellKept (hm c rfl) (fun a ha => hnew a (congrArg Move.call ha)) hp

/-- Through moves that keep keys there is one key for each id, that of its row whenever there is
one. -/
theorem Keeps.exists_keyed (h : d.Keeps (Ledger.Keyed κ)) {moves : List Move}
    (hd : d.isFaithful moves = true) (hm : d.KeepsKeys moves) :
    ∃ κ', (∀ id, id < d.ledger.nextId → κ' id = κ id) ∧ ∀ n, (d.after moves n).Keyed κ' := by
  induction moves generalizing d κ with
  | nil =>
    refine ⟨κ, fun _ _ => rfl, ?_⟩
    intro n
    rw [after, List.take_nil]
    exact h.now
  | cons m rest ih =>
    obtain ⟨hd, hrest⟩ := isFaithful_cons hd
    obtain ⟨κ₁, hκ₁, h₁⟩ := h.keyed_move m hd hm.1
    obtain ⟨κ', hκ', hafter⟩ := ih h₁ hrest hm.2
    have hκ : ∀ id, id < d.ledger.nextId → κ' id = κ id :=
      fun id hid => (hκ' id (Int.lt_of_lt_of_le hid (h.nextId_le m))).trans (hκ₁ id hid)
    refine ⟨κ', hκ, ?_⟩
    intro n
    cases n with
    | zero => exact h.now.congr h.wellKept hκ
    | succ n => exact hafter n

theorem keepsKeys_of_same {moves : List Move}
    (h : ∀ i j id a b, (d.after moves i).advisories.get? id = some a →
      (d.after moves j).advisories.get? id = some b → a.naturalKey = b.naturalKey) :
        d.KeepsKeys moves := by
  induction moves generalizing d with
  | nil => trivial
  | cons m rest ih =>
    refine ⟨?_, ih fun i j => h (i + 1) (j + 1)⟩
    rintro c rfl
    cases c with
    | updateAdvisory a =>
      intro id b ha hb
      have hwritten : (d.after (.call (.updateAdvisory a) :: rest) 1).advisories.get? id =
          some a := by
        simp only [after, List.take_succ_cons, List.take_zero, play, List.foldl_cons,
          List.foldl_nil, move, Ledger.perform, ha, Option.bind_some, hb, Option.map_some,
          Table.get?_put, if_true]
      exact h 1 0 id a b hwritten hb
    | _ => trivial

/-- Where advisories have the ids that they were passed with whenever a transaction is aborted, no
two rows ever have one key, and no row ever has another one than it had, through exactly those moves
that keep keys. -/
theorem keepsKeys_iff {moves : List Move} (hd : ({} : Desk).isFaithful moves = true) :
    ({} : Desk).KeepsKeys moves ↔
      (∀ n, (({} : Desk).after moves n).OneRowEach) ∧
      ∀ i j id a b, (({} : Desk).after moves i).advisories.get? id = some a →
        (({} : Desk).after moves j).advisories.get? id = some b → a.naturalKey = b.naturalKey := by
  constructor
  · intro hm
    obtain ⟨κ, -, h⟩ := (keeps_empty (Ledger.keyed_empty fun _ => (.nvd, ""))).exists_keyed hd hm
    refine ⟨fun n => (h n).oneRowEach, ?_⟩
    intro i j id a b ha hb
    exact ((h i).keyedBy id a ha).trans ((h j).keyedBy id b hb).symm
  · intro h
    exact keepsKeys_of_same h.2

/-- An advisory is updated under its key, has another id for a while, and the update is taken
back. -/
def revision : List Move :=
  [.call (.insertAdvisory { vulnId := "CVE-1" }), .commit,
    .call (.updateAdvisory { vulnId := "CVE-1", title := some "A", id := some 1 }),
    .renumber 0 7, .renumber 0 1, .abort]

theorem keepsKeys_iff_revision : ({} : Desk).isFaithful revision = true ∧
    (({} : Desk).KeepsKeys revision ↔
    (∀ n, (({} : Desk).after revision n).OneRowEach) ∧
    ∀ i j id a b, (({} : Desk).after revision i).advisories.get? id = some a →
      (({} : Desk).after revision j).advisories.get? id = some b → a.naturalKey = b.naturalKey) :=
  ⟨by decide, keepsKeys_iff (by decide)⟩

/-- Two advisories go in, and the second is updated to the key of the first. -/
def rekeying : List Move :=
  [.call (.insertAdvisory { vulnId := "CVE-1" }), .call (.insertAdvisory { vulnId := "CVE-2" }),
    .call (.updateAdvisory { vulnId := "CVE-1", id := some 2 }), .commit]

/-- In the end both rows have one key, and the second has lost its own. -/
theorem rekeying_breaks : ¬ (({} : Desk).after rekeying 4).OneRowEach ∧
    ∃ a b, (({} : Desk).after rekeying 2).advisories.get? 2 = some a ∧
      (({} : Desk).after rekeying 4).advisories.get? 2 = some b ∧ a.naturalKey ≠ b.naturalKey := by
  constructor
  · intro h
    have htwo : (1 : Int) = 2 :=
      h 1 2 { vulnId := "CVE-1", id := some 1 } { vulnId := "CVE-1", id := some 2 } rfl rfl rfl
    exact absurd htwo (by decide)
  · exact ⟨{ vulnId := "CVE-2", id := some 2 }, { vulnId := "CVE-1", id := some 2 }, rfl, rfl, by decide⟩

end Desk

end AdvisoryLedger
