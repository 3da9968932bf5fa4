import AdvisoryLedger.Database.Statement
import AdvisoryLedger.Proofs.Text.Numeral

namespace AdvisoryLedger

open Statement

namespace Sql

inductive Token
  | word (s : String)
  | quoted (s : String)
  | sign (c : Char)
  deriving DecidableEq, Repr

/-- What has been begun and is not a token yet. -/
inductive Pending
  | none
  | word (cs : List Char)
  | quoted (cs : List Char)
  deriving DecidableEq

def isWordChar (c : Char) : Bool := c.isAlphanum || c = '_' || c = '$'

/-- A character where nothing is pending. Blanks do not count. -/
def begin (c : Char) : List Token × Pending :=
  if isWordChar c then ([], .word [c])
  else if c = '"' then ([], .quoted [])
  else if c = ' ' then ([], .none)
  else ([.sign c], .none)

def step : Pending → Char → List Token × Pending
  | .none, c => begin c
  | .word cs, c =>
    if isWordChar c then ([], .word (cs ++ [c]))
      else (.word (.ofList cs) :: (begin c).1, (begin c).2)
  | .quoted cs, c => if c = '"' then ([.quoted (.ofList cs)], .none) else ([], .quoted (cs ++ [c]))

def scan (p : Pending) : List Char → List Token × Pending
  | [] => ([], p)
  | c :: rest => ((step p c).1 ++ (scan (step p c).2 rest).1, (scan (step p c).2 rest).2)

def Pending.tokens : Pending → List Token
  | .word cs => [.word (.ofList cs)]
  | _ => []

def tokens (text : String) : List Token :=
  (scan .none text.toList).1 ++ (scan .none text.toList).2.tokens

def Token.name? : Token → Option String
  | .quoted s => some s
  | _ => none

def Token.place? : Token → Option Nat
  | .word s =>
    match s.toList with
    | '$' :: ds => if ds ≠ [] ∧ ds.all Char.isDigit then some (Nat.ofDigitChars 10 ds 0) else none
    | _ => none
  | _ => none

section Scan

variable {s t : String} {ts us vs : List Token} {α : Type}

theorem scan_append (p : Pending) (xs ys : List Char) : scan p (xs ++ ys) =
    ((scan p xs).1 ++ (scan (scan p xs).2 ys).1, (scan (scan p xs).2 ys).2) := by
  induction xs generalizing p with
  | nil => rfl
  | cons c rest ih => simp only [List.cons_append, scan, ih, List.append_assoc]

/-- The text is made of these tokens; the last one may be a word that goes on. -/
def Spells (s : String) (ts : List Token) : Prop :=
  scan .none s.toList = (ts, .none) ∨
    ∃ us cs, scan .none s.toList = (us, .word cs) ∧ ts = us ++ [.word (.ofList cs)]

/-- The text is made of these tokens, leaves nothing begun, and ends a word that comes before it. -/
def Separates (s : String) (ts : List Token) : Prop :=
  scan .none s.toList = (ts, .none) ∧ s.toList.head?.any (fun c => !isWordChar c) = true

instance : Decidable (Separates s ts) := inferInstanceAs (Decidable (_ ∧ _))

theorem Separates.scan_word (h : Separates s ts) (cs : List Char) :
    scan (.word cs) s.toList = (.word (.ofList cs) :: ts, .none) := by
  obtain ⟨hscan, hhead⟩ := h
  cases hs : s.toList with
  | nil => simp [hs] at hhead
  | cons c rest =>
    have hc : isWordChar c = false := by simpa [hs] using hhead
    rw [hs] at hscan
    simp only [scan, step, hc, Bool.false_eq_true, if_false, List.cons_append] at hscan ⊢
    obtain ⟨htokens, hrest⟩ := Prod.mk.inj hscan
    exact Prod.ext (congrArg (_ :: ·) htokens) hrest

theorem Spells.tokens_eq (h : Spells s ts) : tokens s = ts := by
  rcases h with h | ⟨us, cs, h, rfl⟩
  · rw [tokens, h]
    exact List.append_nil ts
  · rw [tokens, h]
    rfl

theorem Spells.close (h : Spells s ts) (ht : Separates t us) :
    scan .none (s ++ t).toList = (ts ++ us, .none) := by
  rw [String.toList_append, scan_append]
  rcases h with h | ⟨vs, cs, h, rfl⟩
  · rw [h, ht.1]
  · rw [h, ht.scan_word, List.append_assoc]
    rfl

theorem Spells.after (h : scan .none s.toList = (ts, .none)) (ht : Spells t us) :
    Spells (s ++ t) (ts ++ us) := by
  have hscan : scan .none (s ++ t).toList =
      (ts ++ (scan .none t.toList).1, (scan .none t.toList).2) := by
    rw [String.toList_append, scan_append, h]
  rcases ht with ht | ⟨ws, cs, ht, rfl⟩
  · exact .inl (by rw [hscan, ht])
  · exact .inr ⟨ts ++ ws, cs, by rw [hscan, ht], by rw [List.append_assoc]⟩

theorem Spells.append (h : Spells s ts) {sep : String} (hsep : Separates sep us)
    (ht : Spells t vs) :
    Spells (s ++ sep ++ t) (ts ++ us ++ vs) :=
  .after (h.close hsep) ht

theorem Spells.append_closed (h : Spells s ts) (ht : Separates t us) : Spells (s ++ t) (ts ++ us) :=
  .inl (h.close ht)

theorem spells_intercalate {sep : String} (hsep : Separates sep us) {f : α → String}
    {g : α → List Token} {as : List α} (h : ∀ a ∈ as, Spells (f a) (g a)) :
    Spells (sep.intercalate (as.map f)) (us.intercalate (as.map g)) := by
  induction as with
  | nil => exact .inl rfl
  | cons a rest ih =>
    obtain ⟨ha, hrest⟩ := List.forall_mem_cons.mp h
    cases rest with
    | nil =>
      rw [List.map_singleton, List.map_singleton, String.intercalate_singleton,
        List.intercalate_singleton]
      exact ha
    | cons b rest =>
      rw [List.map_cons, List.map_cons, List.map_cons, List.map_cons, String.intercalate_cons_cons,
        List.intercalate_cons_cons]
      exact ha.append hsep (ih hrest)

theorem scan_quoted {cs : List Char} (h : '"' ∉ cs) (acc : List Char) :
    scan (.quoted acc) (cs ++ ['"']) = ([.quoted (.ofList (acc ++ cs))], .none) := by
  induction cs generalizing acc with
  | nil => simp [scan, step]
  | cons c rest ih =>
    obtain ⟨hc, hrest⟩ := not_or.mp (mt List.mem_cons.mpr h)
    simp only [List.cons_append, scan, step, if_neg (Ne.symm hc), List.nil_append, ih hrest,
      List.append_assoc]

theorem spells_quotedName {name : String} (h : '"' ∉ name.toList) :
    Spells (quotedName name) [.quoted name] := by
  have hlist : (quotedName name).toList = '"' :: (name.toList ++ ['"']) := by
    rw [quotedName, String.toList_append, String.toList_append, List.append_assoc]
    rfl
  refine .inl ?_
  rw [hlist]
  change scan (.quoted []) (name.toList ++ ['"']) = _
  rw [scan_quoted h, List.nil_append, String.ofList_toList]

theorem scan_word {cs : List Char} (h : ∀ c ∈ cs, isWordChar c = true) (acc : List Char) :
    scan (.word acc) cs = ([], .word (acc ++ cs)) := by
  induction cs generalizing acc with
  | nil => simp [scan]
  | cons c rest ih =>
    obtain ⟨hc, hrest⟩ := List.forall_mem_cons.mp h
    simp only [scan, step, hc, if_true, ih hrest, List.append_assoc, List.nil_append,
      List.singleton_append]

theorem toList_placeholder (n : Nat) : (placeholder n).toList = '$' :: Nat.toDigits 10 n := by
  rw [placeholder, String.toList_append]
  exact congrArg ('$' :: ·) Nat.toList_repr

theorem spells_placeholder (n : Nat) : Spells (placeholder n) [.word (placeholder n)] := by
  refine .inr ⟨[], (placeholder n).toList, ?_, by rw [String.ofList_toList]; rfl⟩
  rw [toList_placeholder]
  change ([] ++ (scan (.word ['$']) (Nat.toDigits 10 n)).1,
    (scan (.word ['$']) (Nat.toDigits 10 n)).2) = _
  rw [scan_word]
  · rfl
  · intro c hc
    have hdigit := Text.isDigit_of_mem hc
    simp [isWordChar, Char.isAlphanum, hdigit]

theorem place?_placeholder (n : Nat) : (Token.word (placeholder n)).place? = some n := by
  have hne : Nat.toDigits 10 n ≠ [] := Nat.toDigits_ne_nil
  have hall : (Nat.toDigits 10 n).all Char.isDigit = true :=
    List.all_eq_true.mpr fun c hc => Text.isDigit_of_mem hc
  simp only [Token.place?, toList_placeholder, hne, hall, ne_eq, not_false_eq_true, and_self,
    if_true, Nat.ofDigitChars_ten_toDigits]

end Scan

end Sql

end AdvisoryLedger
