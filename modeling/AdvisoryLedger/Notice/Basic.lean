import AdvisoryLedger.Work

namespace AdvisoryLedger

inductive Topic
  | any | chained | index | refresh
  deriving DecidableEq, Repr

namespace Topic

def name : Topic → String
  | .any => "Event"
  | .chained => "ChainableEvent"
  | .index => "IndexEvent"
  | .refresh => "NistMirrorEvent"

def ofName? (s : String) : Option Topic := [any, chained, index, refresh].find? fun x => x.name == s

/-- Whether subscribers to a topic hear notices of another: a refresh is chained, and all is any. -/
def covers : Topic → Topic → Bool
  | .any, _ => true
  | .chained, t => t = .chained || t = .refresh
  | s, t => s = t

end Topic

inductive Notice
  | plain (label : String)
  | index (label : String) (content : IndexNotice)
  /-- Others follow it; a refresh also asks for the feed to be read. -/
  | chain (label : String) (isRefresh : Bool) (onSuccess onFailure : List Notice)

namespace Notice

instance : Inhabited Notice := ⟨.plain ""⟩

def topic : Notice → Topic
  | .plain _ => .any
  | .index .. => .index
  | .chain _ isRefresh _ _ => if isRefresh then .refresh else .chained

def label : Notice → String
  | .plain label => label
  | .index label _ => label
  | .chain label .. => label

end Notice

end AdvisoryLedger
