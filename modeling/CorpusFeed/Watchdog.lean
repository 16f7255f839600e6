import CorpusFeed.TextLines
import CorpusFeed.TimestampText
import CorpusFeed.UnixTimestamps

/-! The watchdog of a site. It reads the text of the time at which the cursor last
advanced, and tells a cursor that is stuck from one that has nothing to apply. -/

namespace CorpusFeed

inductive WatchdogStatus where
  | noActiveCorpus
  | noNewPackages
  | stalledCursor
  | catchingUp
  | aheadOfHead
deriving DecidableEq

structure WatchdogObservation where
  appliedSequence : Option ℕ
  producerHeadSequence : ℕ
  cursorAgeSecs : Option ℕ
  stallThresholdSecs : ℕ

def WatchdogStatus.isAlert : WatchdogStatus → Bool
  | .stalledCursor | .aheadOfHead => true
  | _ => false

def classifyWatchdog (observation : WatchdogObservation) : WatchdogStatus :=
  match observation.appliedSequence with
  | none => .noActiveCorpus
  | some applied =>
    if applied = observation.producerHeadSequence then .noNewPackages
    else if observation.producerHeadSequence < applied then .aheadOfHead
    else match observation.cursorAgeSecs with
      | some age => if age < observation.stallThresholdSecs then .catchingUp else .stalledCursor
      | none => .stalledCursor

/-- What stops the reading of a text. -/
inductive ReadingPanic where
  | overflow
  | charBoundary
deriving DecidableEq

def checked {α : Type} (result : Except ArithmeticOverflow α) : Except ReadingPanic α :=
  result.mapError fun _ => .overflow

def utf8Len (t : Text) : ℕ := (t.map Char.utf8Size).sum

/-- Both halves of a text at a byte; `none` inside a character. -/
def splitAtByte : ℕ → Text → Option (Text × Text)
  | 0, t => some ([], t)
  | _ + 1, [] => none
  | n + 1, c :: t =>
    if c.utf8Size ≤ n + 1 then (splitAtByte (n + 1 - c.utf8Size) t).map fun parts => (c :: parts.1, parts.2) else none

def offsetSeconds (hours minutes : Text) : Except ReadingPanic (Option Int) :=
  match parseI64 hours, parseI64 minutes with
  | some hours, some minutes => checked do
    let hourSecs ← checkI64 (hours * 3600)
    let minuteSecs ← checkI64 (minutes * 60)
    let secs ← checkI64 (hourSecs + minuteSecs)
    .ok (some secs)
  | _, _ => .ok none

/-- An offset as `HH`, `HH:MM` or `HHMM`. -/
def parseOffsetMagnitude (offset : Text) : Except ReadingPanic (Option Int) :=
  match splitOnce ':' offset with
  | some (hours, minutes) => offsetSeconds hours minutes
  | none =>
    if utf8Len offset = 4 then
      match splitAtByte 2 offset with
      | some (hours, minutes) => offsetSeconds hours minutes
      | none => .error .charBoundary
    else offsetSeconds offset ['0']

def isSign (c : Char) : Bool := c == '+' || c == '-'

/-- The clock, and the seconds east of UTC. A text without an offset is in UTC. -/
def splitOffset (rest : Text) : Except ReadingPanic (Option (Text × Int)) :=
  if rest.getLast? = some 'Z' ∨ rest.getLast? = some 'z' then .ok (some (rest.dropLast, 0))
  else
    match rest.dropWhile (!isSign ·) with
    | [] => .ok (some (rest, 0))
    | sign :: designator =>
      match parseOffsetMagnitude designator with
      | .error panic => .error panic
      | .ok none => .ok none
      | .ok (some magnitude) =>
        (checked (checkI64 (if sign = '-' then -magnitude else magnitude))).map fun offsetSecs =>
          some (rest.takeWhile (!isSign ·), offsetSecs)

def isDateMark (c : Char) : Bool := c == 'T' || c == ' '

/-- The numbers of a date and a clock; more parts are ignored, and a clock without seconds is at 0. -/
def readDateTime (date time : Text) : Option ParsedFields :=
  match date.splitOn '-', time.splitOn ':' with
  | year :: month :: day :: _, hour :: minute :: rest => parseFields year month day hour minute (rest.headD ['0'])
  | _, _ => none

def unixAtOffset (fields : ParsedFields) (offsetSecs : Int) : Except ArithmeticOverflow (Option ℕ) := do
  let secs ← secondsFromCivil fields
  let secs ← checkI64 (secs - offsetSecs)
  .ok (u64FromI64 secs)

def parseTimestamptzUnix (timestamp : Text) : Except ReadingPanic (Option ℕ) :=
  match (trim timestamp).dropWhile (!isDateMark ·) with
  | [] => .ok none
  | _ :: rest =>
    match splitOffset rest with
    | .error panic => .error panic
    | .ok none => .ok none
    | .ok (some (timePart, offsetSecs)) =>
      let date := (trim timestamp).takeWhile (!isDateMark ·)
      match readDateTime date (timePart.takeWhile (· != '.')) with
      | none => .ok none
      | some fields => if fields.dateInRange then checked (unixAtOffset fields offsetSecs) else .ok none

/-- The verdict on one corpus: the head of its verified manifest, its cursor, and the
text of its row in `corpus_status`. -/
def watchdogCorpus (head : ℕ) (cursor : Option ℕ) (appliedAt : Option Text) (nowUnix stallThresholdSecs : ℕ) :
    Except ReadingPanic WatchdogStatus :=
  match appliedAt.map parseTimestamptzUnix with
  | some (.error panic) => .error panic
  | some (.ok appliedUnix) => .ok (classifyWatchdog ⟨cursor, head, appliedUnix.map (nowUnix - ·), stallThresholdSecs⟩)
  | none => .ok (classifyWatchdog ⟨cursor, head, none, stallThresholdSecs⟩)

/-- Minutes and seconds of an offset are shown where there are any. -/
def shortOffsetMagnitude (n : ℕ) : Text :=
  padDecimal 2 (n / 3600) ++
    (if n % 3600 = 0 then []
      else ':' :: (padDecimal 2 (n / 60 % 60) ++ (if n % 60 = 0 then [] else ':' :: padDecimal 2 (n % 60))))

def shortOffsetText (offset : Int) : Text := (if 0 ≤ offset then '+' else '-') :: shortOffsetMagnitude offset.natAbs

namespace Session

/-- `timestamptz::text` under the date style ISO. -/
def columnText (s : Session) : Timestamptz → Text
  | .finite micros =>
    let offset := s.utcOffset (secondsOf micros)
    let here := secondsOf micros + offset
    dateText (here / 86400) ++ ' ' :: (clockText (here % 86400).natAbs (micros % 1000000).natAbs ++
      (shortOffsetText offset ++ eraText (here / 86400)))
  | .infinity => "infinity".toList
  | .negInfinity => "-infinity".toList

/-- No zone is a day away from UTC. -/
def Bounded (s : Session) : Prop := ∀ secs, (s.utcOffset secs).natAbs < 86400

/-- The second that the watchdog reads off the text of a time. -/
def readableSecond (s : Session) : Timestamptz → Option ℕ
  | .finite micros =>
    if 0 ≤ micros ∧ s.utcOffset (secondsOf micros) % 60 = 0 then some (secondsOf micros).toNat else none
  | _ => none

end Session

/-- The times of the type: from 4713 BC to the year 294276. -/
def Timestamptz.InRange : Timestamptz → Prop
  | .finite micros => -210866803200000000 ≤ micros ∧ micros < 9224318016000000000
  | _ => True

example : (Session.mk fun _ => -12600).columnText (.finite 1767225600250000) =
    "2025-12-31 20:30:00.25-03:30".toList := by decide +kernel

example : parseTimestamptzUnix "2025-12-31 20:30:00.25-03:30".toList = .ok (some 1767225600) := by decide +kernel

end CorpusFeed
