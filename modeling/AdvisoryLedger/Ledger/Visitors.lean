import AdvisoryLedger.Ledger.Hall

namespace AdvisoryLedger

/-- How a visitor is to end. One who has not entered yet keeps to it until inside. -/
inductive Visitor.Order
  | leave | fail
  deriving DecidableEq, Repr

inductive Visitor.Ending
  | done | failed | cancelled
  deriving DecidableEq, Repr

structure Visitor where
  name : String
  order : Option Visitor.Order := none
  ending : Option Visitor.Ending := none

/-- A hall, its visitors in the order of their visits, and the signs put up: who is in and who is
out. -/
structure Visitors where
  hall : Hall Unit := {}
  visitors : List Visitor := []
  signs : List String := []

namespace Visitors

def putUp (s : Visitors) (sign : String) : Visitors := { s with signs := s.signs ++ [sign] }

def setEnding (s : Visitors) (i : Nat) (ending : Visitor.Ending) : Visitors :=
  { s with visitors := s.visitors.modify i fun v => { v with ending := some ending } }

def obey (s : Visitors) (i : Nat) : Visitors :=
  match s.visitors[i]? with
  | some ⟨name, some .leave, none⟩ =>
    let sign := Call.ask (.setConfig "order" name (some (toString s.signs.length)))
    let s := { s with hall := (s.hall.redirect i sign).run [i, i] }
    (s.setEnding i .done).putUp (name ++ " out")
  | some ⟨_, some .fail, none⟩ =>
    let s := { s with hall := (s.hall.redirect i (.fail .wrongKind)).run [i] }
    s.setEnding i .failed
  | _ => s

def settle : Nat → Visitors → Visitors
  | 0, s => s
  | rounds + 1, s =>
    match (List.range s.visitors.length).find? s.hall.mayEnter with
    | some i =>
      let name := ((s.visitors[i]?).map (·.name)).getD ""
      settle rounds ((({ s with hall := s.hall.run [i] }).putUp (name ++ " in")).obey i)
    | none => s

def calm (s : Visitors) : Visitors := settle s.visitors.length s

def enter (s : Visitors) (name : String) (lock : Option String) : Visitors :=
  calm { s with hall := s.hall.arrive lock (pure ()), visitors := s.visitors ++ [⟨name, none, none⟩] }

/-- The first order that a visitor gets counts. -/
def tell (s : Visitors) (name : String) (order : Visitor.Order) : Visitors :=
  match s.visitors.findIdx? fun v => v.name = name && v.ending.isNone && v.order.isNone with
  | some i =>
    let s := { s with visitors := s.visitors.modify i fun v => { v with order := some order } }
    let isInside := ((s.hall.visits[i]?).map Visit.isInside).getD false
    if isInside then (s.obey i).calm else s
  | none => s

def cancel (s : Visitors) (name : String) : Visitors :=
  match s.visitors.findIdx? fun v => v.name = name && v.ending.isNone with
  | some i => ({ s with hall := s.hall.breakOff i .wrongKind }.setEnding i .cancelled).calm
  | none => s

end Visitors

end AdvisoryLedger
