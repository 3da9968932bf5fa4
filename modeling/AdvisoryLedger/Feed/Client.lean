import AdvisoryLedger.Feed.Record

namespace AdvisoryLedger

/-- What comes back for a request. A body may turn out not to be readable. -/
inductive FeedAnswer
  | lost (cause : Failure)
  | response (status : Int) (body : Except Failure Json)

structure FeedRequest where
  url : String
  start : Int
  pageSize : Int
  window : Option (String × String)
  apiKey : Option String
  sentAt : Rat

namespace FeedRequest

def parameters (r : FeedRequest) : Table String Json :=
  [("startIndex", .int r.start), ("resultsPerPage", .int r.pageSize)] ++
  match r.window with
  | some (first, last) => [("lastModStartDate", .text first), ("lastModEndDate", .text last)]
  | none => []

def headers (r : FeedRequest) : Table String String :=
  (r.apiKey.map fun key => ("apiKey", key)).toList

end FeedRequest

structure FeedOptions where
  endpoint : String
  apiKey : Option String := none
  /-- Only records modified since then are asked for; zero asks for all. -/
  lastModifiedEpoch : Int := 0
  pageSize : Int := 2000
  /-- Seconds between two requests; by default it depends on whether there is a key. -/
  delay : Option Binary64 := none

structure FeedClient where
  endpoint : String
  apiKey : Option String := none
  pageSize : Int := 2000
  delay : Binary64
  window : Option (Moment × Moment) := none
  start : Int := 0
  total : Option Int := none
  lastUpdated : Option Moment := none
  lastSent : Option Rat := none

namespace FeedClient

instance : Inhabited FeedClient := ⟨{ endpoint := "", delay := .zero }⟩

/-- The longest window that the feed accepts, in seconds. -/
def maxWindow : Int := 120 * 86400

def delayWithKey : Binary64 := .ofQuotient false 6 10
def delayWithoutKey : Binary64 := .ofQuotient false 6 1

/-- From here on a time cannot be broken down into years and days. -/
def calendarLimit : Int := 67768036191676800

/-- From here on a number of seconds is no time at all. -/
def secondsLimit : Int := 0x8000000000000000

def momentOfEpoch (seconds : Int) : Except Failure Moment :=
  if secondsLimit ≤ seconds then .error .outOfRange
  else if calendarLimit ≤ seconds then .error .beyondCalendar
  else
    match Moment.ofEpochSeconds? seconds with
    | some m => .ok m
    | none => .error .invalidValue

/-- The window that begins at an epoch; there is none for the epoch zero or before it. -/
def windowSince (seconds : Int) : Except Failure (Option (Moment × Moment)) :=
  if 0 < seconds then do
    let first ← momentOfEpoch seconds
    match first.addSeconds? maxWindow with
    | some last => .ok (some (first, last))
    | none => .error .outOfRange
  else .ok none

def note (level : LogLevel) (text : String) : LogEntry := ⟨.feed, level, text, none⟩

def ofOptions (o : FeedOptions) : Noted FeedClient := do
  let apiKey := o.apiKey.filter fun key => !key.isEmpty
  let delay := o.delay.getD (if apiKey.isSome then delayWithKey else delayWithoutKey)
  let window ← windowSince o.lastModifiedEpoch
  if apiKey.isNone then
    Noted.log (note .warning "⚠️ No API key configured; Aggressive rate limiting to be expected")
  pure { endpoint := o.endpoint, apiKey, pageSize := o.pageSize, delay, window }

/-- Before the first page it is not known whether there is one. -/
def hasNext (c : FeedClient) : Bool :=
  match c.total with
  | none => true
  | some total => c.start < total

/-- When a request that is due now goes out: not before the delay since the last one has passed. -/
def sendTime (c : FeedClient) (now : Rat) : Rat :=
  match c.lastSent with
  | none => now
  | some last =>
    let remaining := (c.delay.toRat?).getD 0 - (now - last)
    if 0 < remaining then now + remaining else now

def windowText (w : Moment × Moment) : Option (String × String) := do
  some (← FeedStamp.write? w.1, ← FeedStamp.write? w.2)

def request (c : FeedClient) (now : Rat) : FeedRequest × FeedClient :=
  let sentAt := c.sendTime now
  (⟨c.endpoint, c.start, c.pageSize, c.window.bind windowText, c.apiKey, sentAt⟩,
    { c with lastSent := some sentAt })

def requestEntry (c : FeedClient) : LogEntry :=
  note .debug ("📥 Requesting " ++ c.endpoint ++ " startIndex=" ++ toString c.start)

def fault {α : Type} (c : FeedClient) (f : FetchFault) : Noted α :=
  ⟨.error (.fetch f c.endpoint), [note .error ("❌ " ++ f.describe)]⟩

/-- Faults of transport are the feed's; any other failure is passed on. -/
def carry {α : Type} (c : FeedClient) : Failure → Noted α
  | .transport cause => c.fault (.transport cause c.start)
  | e => Noted.fail e

def body (c : FeedClient) (answer : FeedAnswer) : Noted Json :=
  match answer with
  | .lost e => c.carry e
  | .response status body =>
    if status ≠ 200 then c.fault (.status status c.start)
    else
      match body with
      | .error e => c.carry e
      | .ok (.object members) => pure (.object members)
      | .ok _ => c.fault .notAnObject

/-- The number of records that a page announces, zero where it says nothing. -/
def announced (c : FeedClient) (page : Json) : Noted Int :=
  match page with
  | .object members =>
    match Json.lookup "totalResults" members with
    | none => pure 0
    | some v =>
      match v.integer with
      | .ok n => pure n
      | .error .outOfRange => Noted.fail .outOfRange
      | .error _ => c.fault (.invalidTotal v)
  | _ => Noted.fail .noSuchMember

/-- How far a page takes the reading: past its items, or to the end if it has none. -/
def advance (c : FeedClient) (total : Int) (items : List Json) : FeedClient :=
  { c with start := if items.isEmpty then total else c.start + items.length }

def modified (item : Json) : Noted (Option Moment) := do
  let cve := (← item.member "cve").orEmptyObject
  Record.stamp (← cve.member "lastModified")

def observe (c : FeedClient) (m : Option Moment) : FeedClient :=
  match m, c.lastUpdated with
  | none, _ => c
  | some m, none => { c with lastUpdated := some m }
  | some m, some last => if last.before m then { c with lastUpdated := some m } else c

/-- Looks at the items in turn, up to the first that is none. -/
def observeAll (c : FeedClient) : List Json → Noted Unit × FeedClient
  | [] => (pure (), c)
  | item :: rest =>
    let x := modified item
    match x.result with
    | .error e => (⟨.error e, x.entries⟩, c)
    | .ok m =>
      let (y, c) := (c.observe m).observeAll rest
      (⟨y.result, x.entries ++ y.entries⟩, c)

def progressEntry (c : FeedClient) (total : Int) : LogEntry :=
  note .info ("📊 Retrieved " ++ Text.grouped (min c.start total) ++ "/" ++ Text.grouped total ++ " CVEs")

/-- The items of a page. The client has moved past them even where one of them turns out to be
none. -/
def turn (c : FeedClient) (total : Int) (page : Json) : Noted (List Json) × FeedClient :=
  let c := { c with total := some total }
  match (page.member "vulnerabilities").bind Json.elementsIfAny with
  | .error e => (Noted.fail e, c)
  | .ok items =>
    let (x, c) := (c.advance total items).observeAll items
    (do
      x
      Noted.log (c.progressEntry total)
      pure items, c)

def receive (c : FeedClient) (answer : FeedAnswer) : Noted (List Json) × FeedClient :=
  let x := do
    let page ← c.body answer
    pure (page, ← c.announced page)
  match x.result with
  | .error e => (⟨.error e, x.entries⟩, c)
  | .ok (page, total) =>
    let (y, c) := c.turn total page
    (⟨y.result, x.entries ++ y.entries⟩, c)

structure Next where
  /-- The request that went out, if one did. -/
  sent : Option FeedRequest
  page : Except Failure (List Json)
  client : FeedClient
  entries : List LogEntry

/-- A call for the next page at a time, with what comes back for a request. Where there is no more,
none is sent. -/
def next (c : FeedClient) (now : Rat) (answer : FeedAnswer) : Next :=
  if c.hasNext then
    let (r, asked) := c.request now
    let (page, received) := asked.receive answer
    ⟨some r, page.result, received, c.requestEntry :: page.entries⟩
  else ⟨none, .ok [], c, []⟩

end FeedClient

end AdvisoryLedger
