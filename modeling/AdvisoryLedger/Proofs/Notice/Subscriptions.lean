import AdvisoryLedger.Notice.Hub
import AdvisoryLedger.Proofs.Table
import Mathlib.Data.List.Induction

namespace AdvisoryLedger

def Topic.lineage : Topic → List Topic
  | .any => [.any]
  | .chained => [.chained, .any]
  | .index => [.index, .any]
  | .refresh => [.refresh, .chained, .any]

theorem Topic.covers_eq (s t : Topic) : s.covers t = decide (s ∈ t.lineage) := by
  cases s <;> cases t <;> rfl

/-- A call that changes who is subscribed. -/
inductive SubscriptionChange
  | subscribe (topic : Topic) (subscriber : String)
  | unsubscribe (topic : Topic) (subscriber : String)

namespace SubscriptionChange

def subscribed? : SubscriptionChange → Option Topic
  | .subscribe topic _ => some topic
  | .unsubscribe .. => none

/-- What a call does to the subscribers of one topic. -/
def register (topic : Topic) (subscribers : List String) : SubscriptionChange → List String
  | .subscribe t subscriber => if t = topic then subscribers ++ [subscriber] else subscribers
  | .unsubscribe t subscriber => if t = topic then subscribers.erase subscriber else subscribers

end SubscriptionChange

namespace Subscriptions

open SubscriptionChange

def change (s : Subscriptions) : SubscriptionChange → Subscriptions
  | .subscribe topic subscriber => s.subscribe topic subscriber
  | .unsubscribe topic subscriber => s.unsubscribe topic subscriber

def after (changes : List SubscriptionChange) : Subscriptions := changes.foldl change []

/-- The topics that were subscribed to, in the order in which they first were. -/
def groups (changes : List SubscriptionChange) : List Topic :=
  (changes.filterMap subscribed?).eraseDups

/-- The subscribers that a topic has after some calls. -/
def registered (changes : List SubscriptionChange) (topic : Topic) : List String :=
  changes.foldl (register topic) []

/-- Those who hear notices of a topic after some calls. -/
def hearers (changes : List SubscriptionChange) (topic : Topic) : List String :=
  (groups changes).flatMap fun group => if group ∈ topic.lineage then
    registered changes group else []

theorem eraseDups_concat (topics : List Topic) (topic : Topic) :
    (topics ++ [topic]).eraseDups =
      if topic ∈ topics.eraseDups then topics.eraseDups else topics.eraseDups ++ [topic] := by
  rw [List.eraseDups_append]
  by_cases h : topic ∈ topics
  · rw [if_pos (List.mem_eraseDups.mpr h)]
    simp [List.removeAll, h]
  · rw [if_neg (mt List.mem_eraseDups.mp h)]
    simp [List.removeAll, h, List.eraseDups_cons]

theorem groups_subscribe (changes : List SubscriptionChange) (topic : Topic) (subscriber : String) :
    groups (changes ++ [.subscribe topic subscriber]) =
      if topic ∈ groups changes then groups changes else groups changes ++ [topic] := by
  rw [groups, List.filterMap_append]
  exact eraseDups_concat ..

theorem groups_unsubscribe (changes : List SubscriptionChange) (topic : Topic)
    (subscriber : String) :
    groups (changes ++ [.unsubscribe topic subscriber]) = groups changes := by
  rw [groups, List.filterMap_append, List.filterMap_cons_none rfl, List.filterMap_nil,
    List.append_nil, ← groups]

theorem getD_change (s : Subscriptions) (c : SubscriptionChange) (topic : Topic) :
    ((s.change c).get? topic).getD [] = register topic ((s.get? topic).getD []) c := by
  cases c with
  | subscribe t subscriber =>
    rw [change, subscribe, register, Table.get?_put]
    by_cases h : t = topic <;> simp [h]
  | unsubscribe t subscriber =>
    rw [change, unsubscribe, register, Table.get?_modify]
    by_cases h : t = topic
    · cases s.get? topic <;> simp [h]
    · simp [h]

theorem after_concat (changes : List SubscriptionChange) (c : SubscriptionChange) :
    after (changes ++ [c]) = (after changes).change c := List.foldl_concat ..

theorem keys_after (changes : List SubscriptionChange) : (after changes).keys = groups changes := by
  induction changes using List.reverseRecOn with
  | nil => rfl
  | append_singleton changes c ih =>
    rw [after_concat]
    cases c with
    | subscribe topic subscriber =>
      rw [groups_subscribe, change, subscribe, ← ih]
      by_cases h : topic ∈ (after changes).keys
      · rw [if_pos h, Table.keys_put_of_mem h]
      · rw [if_neg h, Table.put_of_notMem h, Table.keys, List.map_append, ← Table.keys]
        rfl
    | unsubscribe topic subscriber =>
      rw [groups_unsubscribe, change, unsubscribe, Table.keys_modify, ih]

theorem nodup_keys_after (changes : List SubscriptionChange) : (after changes).keys.Nodup := by
  induction changes using List.reverseRecOn with
  | nil => exact List.nodup_nil
  | append_singleton changes c ih =>
    rw [after_concat]
    cases c with
    | subscribe topic subscriber => exact Table.nodup_put ih topic _
    | unsubscribe topic subscriber => rwa [change, unsubscribe, Table.keys_modify]

theorem getD_after (changes : List SubscriptionChange) (topic : Topic) :
    ((after changes).get? topic).getD [] = registered changes topic := by
  induction changes using List.reverseRecOn with
  | nil => rfl
  | append_singleton changes c ih =>
    rw [after_concat, getD_change, ih, registered, registered, List.foldl_concat]

theorem hearing_eq {s : Subscriptions} (hs : s.keys.Nodup) (topic : Topic) :
    s.hearing topic = s.keys.flatMap fun group => if group.covers topic then (s.get? group).getD []
      else [] := by
  rw [hearing, Table.keys, List.flatMap_map]
  apply List.flatMap_congr
  rintro ⟨group, subscribers⟩ hrow
  rw [Table.get?_of_mem hs hrow, Option.getD_some]

theorem hearing_after (changes : List SubscriptionChange) (topic : Topic) :
    (after changes).hearing topic = hearers changes topic := by
  rw [hearing_eq (nodup_keys_after changes), keys_after, hearers]
  apply List.flatMap_congr
  intro group _
  rw [getD_after, Topic.covers_eq]
  simp only [decide_eq_true_eq]

end Subscriptions

end AdvisoryLedger
