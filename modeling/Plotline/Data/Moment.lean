import Plotline.Number.Shortest
import Plotline.Number.Whole

/-!
# Days and times

* `Zone`: a distance from Greenwich.
* `Day`, `Clock`, `Moment`: a day of the calendar, with or without a time of the day.
* `Moment.fault?`: the part of a moment that is out of its range.
* `Moment.instant?`: the microseconds up to a moment whose distance from Greenwich is known.
* `Moment.display`, `Moment.inner`: a moment as people read it, alone and as a part of something.
* `Stamp`, `Stamp.ofText?`: a moment as it is written; `Stamp.meant` is the moment that is meant.
-/

namespace Plotline

structure Day where
  year : Nat
  month : Nat
  day : Nat
deriving DecidableEq, Repr

/-- A distance from Greenwich. -/
structure Zone where
  /-- Minutes ahead of it. -/
  ahead : Int
  /-- How that is written. -/
  name : String
deriving DecidableEq, Repr

/-- A time of the day. -/
structure Clock where
  hour : Nat
  minute : Nat
  second : Nat
  micro : Nat := 0
  /-- The distance from Greenwich, if it is known. -/
  zone : Option Zone := none
deriving DecidableEq, Repr

/-- A day, with or without a time. -/
structure Moment where
  day : Day
  clock : Option Clock := none
deriving DecidableEq, Repr

namespace Day

/-- Every fourth year has a day more, but of the full centuries only every fourth. -/
def isLeap (year : Nat) : Bool := year % 4 = 0 && (year % 100 ≠ 0 || year % 400 = 0)

def daysIn (year month : Nat) : Nat :=
  if month = 2 then if isLeap year then 29 else 28
  else if [4, 6, 9, 11].contains month then 30
  else 31

def daysBefore (year : Nat) : (month : Nat) → Nat
  | 0 => 0
  | 1 => 0
  | month + 1 => daysBefore year month + daysIn year month

/-- The number of days up to a day, counted from the first of the first year. -/
def number (d : Day) : Nat :=
  let y := d.year - 1
  365 * y + y / 4 - y / 100 + y / 400 + daysBefore d.year d.month + d.day

def next (d : Day) : Day :=
  if d.day < daysIn d.year d.month then { d with day := d.day + 1 }
  else if d.month < 12 then ⟨d.year, d.month + 1, 1⟩
  else ⟨d.year + 1, 1, 1⟩

/-- The last day that has a number of four digits for its year. -/
def last : Day := ⟨9999, 12, 31⟩

end Day

/-- The time one second later on the same day, if there is one. -/
def Clock.next? (c : Clock) : Option Clock :=
  if c.second < 59 then some { c with second := c.second + 1 }
  else if c.minute < 59 then some { c with minute := c.minute + 1, second := 0 }
  else if c.hour < 23 then some { c with hour := c.hour + 1, minute := 0, second := 0 }
  else none

inductive MomentFault where
  | year (given : Nat)
  | month
  | day
  | hour
  | minute
  | second
  /-- A day or more from Greenwich. -/
  | zone (ahead : Int)
  /-- It comes after the last day. -/
  | late
deriving DecidableEq, Repr

def zeroPadded (width n : Nat) : String := String.ofList (Number.padded width (Number.digits n))

def showMinutes (minutes : Int) : String :=
  let days := minutes.fdiv 1440
  let seconds := 60 * minutes.fmod 1440
  let parts := (if days = 0 then [] else ["days=" ++ toString days]) ++
    (if seconds = 0 then [] else ["seconds=" ++ toString seconds])
  "datetime.timedelta(" ++ (if parts.isEmpty then "0" else ", ".intercalate parts) ++ ")"

def MomentFault.message : MomentFault → String
  | year n => "year " ++ toString n ++ " is out of range"
  | month => "month must be in 1..12"
  | day => "day is out of range for month"
  | hour => "hour must be in 0..23"
  | minute => "minute must be in 0..59"
  | second => "second must be in 0..59"
  | zone n =>
    "offset must be a timedelta strictly between -timedelta(hours=24) and timedelta(hours=24), not " ++
      showMinutes n ++ "."
  | late => "date value out of range"

namespace Moment

def dayFault? (d : Day) : Option MomentFault :=
  if d.year < 1 || 9999 < d.year then some (.year d.year)
  else if d.month < 1 || 12 < d.month then some .month
  else if d.day < 1 || Day.daysIn d.year d.month < d.day then some .day
  else none

def clockFault? (c : Clock) : Option MomentFault :=
  if 23 < c.hour then some .hour
  else if 59 < c.minute then some .minute
  else if 59 < c.second then some .second
  else none

/-- The part of a moment that is out of its range; the distance from Greenwich comes first. -/
def fault? (m : Moment) : Option MomentFault :=
  match m.clock with
  | none => dayFault? m.day
  | some c =>
    match c.zone with
    | some z => if z.ahead.natAbs < 1440 then (dayFault? m.day).or (clockFault? c) else some (.zone z.ahead)
    | none => (dayFault? m.day).or (clockFault? c)

def next (m : Moment) : Except MomentFault Moment :=
  match m.clock with
  | none => .ok m
  | some c =>
    match c.next? with
    | some c => .ok { m with clock := some c }
    | none =>
      if m.day = Day.last then .error .late
      else .ok ⟨m.day.next, some { c with hour := 0, minute := 0, second := 0 }⟩

/-- The microseconds up to a moment whose distance from Greenwich is known. -/
def instant? (m : Moment) : Option Int := do
  let c ← m.clock
  let zone ← c.zone
  let minutes : Int := 1440 * m.day.number + 60 * c.hour + c.minute - zone.ahead
  some (1000000 * (60 * minutes + c.second) + c.micro)

/-- Two moments are the same: as written, or as the same instant. -/
def same (a b : Moment) : Bool :=
  match a.instant?, b.instant? with
  | some x, some y => x == y
  | none, none => a == b
  | _, _ => false

/-- A distance from Greenwich in hours and minutes with a sign. -/
def showOffset (n : Int) : String :=
  (if n < 0 then "-" else "+") ++ zeroPadded 2 (n.natAbs / 60) ++ ":" ++ zeroPadded 2 (n.natAbs % 60)

/-- A moment as people read it: year, month and day with dashes, then the time with colons. -/
def display (m : Moment) : String :=
  let day := zeroPadded 4 m.day.year ++ "-" ++ zeroPadded 2 m.day.month ++ "-" ++ zeroPadded 2 m.day.day
  match m.clock with
  | none => day
  | some c =>
    day ++ " " ++ zeroPadded 2 c.hour ++ ":" ++ zeroPadded 2 c.minute ++ ":" ++ zeroPadded 2 c.second ++
      (if c.micro = 0 then "" else "." ++ zeroPadded 6 c.micro) ++ ((c.zone.map fun z => showOffset z.ahead).getD "")

/-- A moment as a part of something: its numbers in order, without zero seconds. -/
def inner (m : Moment) : String :=
  let day := [m.day.year, m.day.month, m.day.day]
  match m.clock with
  | none => "datetime.date(" ++ ", ".intercalate (day.map toString) ++ ")"
  | some c =>
    let fine := if c.micro ≠ 0 then [c.second, c.micro] else if c.second ≠ 0 then [c.second] else []
    let zone := match c.zone with
      | none => ""
      | some z => ", tzinfo=datetime.timezone(" ++ showMinutes z.ahead ++ ", '" ++ z.name ++ "')"
    "datetime.datetime(" ++ ", ".intercalate ((day ++ [c.hour, c.minute] ++ fine).map toString) ++ zone ++ ")"

end Moment

/-- A moment as it is written. -/
structure Stamp where
  /-- The moment, in whole microseconds. -/
  moment : Moment
  /-- The digits behind the microseconds come to half of one or more. -/
  roundsUp : Bool := false

namespace Stamp

/-- A number of at least `least` and at most `most` digits at the head of a text. -/
def number? (least most : Nat) (s : List Char) : Option (Nat × List Char) :=
  let ds := (s.take most).takeWhile Char.isDigit
  if ds.length < least then none else some (Number.digitsValue ds, s.drop ds.length)

/-- What follows a sign. -/
def behind? (c : Char) : List Char → Option (List Char)
  | [] => none
  | x :: r => if x = c then some r else none

/-- A distance from Greenwich up to the end: nothing, the letter for none, or hours and minutes with a sign. -/
def zone? (s : List Char) : Option (Option Zone) :=
  match s.dropWhile fun c => c = ' ' || c = '\t' with
  | [] => if s.isEmpty then some none else none
  | 'Z' :: r => if r.isEmpty then some (some ⟨0, "Z"⟩) else none
  | c :: written => do
    if c ≠ '+' ∧ c ≠ '-' then none
    let (hours, r) ← number? 1 2 written
    let minutes ← if r.isEmpty then some 0 else do
      let (n, r) ← number? 2 2 (← behind? ':' r)
      if r.isEmpty then some n else none
    some (some ⟨Number.signed (c = '-') (60 * hours + minutes), String.ofList (c :: written)⟩)

/-- What parts a day from a time: a letter, or blanks. -/
def behindGap? : List Char → Option (List Char)
  | [] => none
  | c :: r =>
    if c = 'T' || c = 't' then some r
    else if c = ' ' || c = '\t' then some (r.dropWhile fun c => c = ' ' || c = '\t')
    else none

/-- A moment as it is written: a day with dashes, and a time with colons, a fraction and a distance from Greenwich,
of which the latter two may be missing. -/
def ofText? (s : List Char) : Option Stamp := do
  let (year, s) ← number? 4 4 s
  let (month, s) ← number? 1 2 (← behind? '-' s)
  let (day, s) ← number? 1 2 (← behind? '-' s)
  if s.isEmpty then return { moment := ⟨⟨year, month, day⟩, none⟩ }
  let (hour, s) ← number? 1 2 (← behindGap? s)
  let (minute, s) ← number? 2 2 (← behind? ':' s)
  let (second, s) ← number? 2 2 (← behind? ':' s)
  let (fraction, s) := match behind? '.' s with
    | some r => (r.takeWhile Char.isDigit, r.dropWhile Char.isDigit)
    | none => ([], s)
  let zone ← zone? s
  let kept := fraction.take 6
  let micro := Number.digitsValue (kept ++ List.replicate (6 - kept.length) '0')
  some ⟨⟨⟨year, month, day⟩, some { hour, minute, second, micro, zone }⟩, fraction[6]?.any ('4' < ·)⟩

/-- The moment that is meant, rounded to microseconds. -/
def meant (s : Stamp) : Except MomentFault Moment :=
  match s.moment.clock with
  | some c =>
    let (micro, carries) :=
      if s.roundsUp then if c.micro = 999999 then (0, true) else (c.micro + 1, false) else (c.micro, false)
    let m : Moment := { s.moment with clock := some { c with micro } }
    match m.fault? with
    | some f => .error f
    | none => if carries then m.next else .ok m
  | none =>
    match s.moment.fault? with
    | some f => .error f
    | none => .ok s.moment

end Stamp
end Plotline
