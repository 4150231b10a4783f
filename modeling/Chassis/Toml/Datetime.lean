/-!
# Dates and times in settings

A date, a time of day, or both with an optional offset from universal time. The reader takes exactly
the calendar dates there are and every second up to a leap second.
-/

set_option autoImplicit false

namespace Chassis.Toml

structure Date where
  year : Nat
  month : Nat
  day : Nat
deriving DecidableEq, Repr

structure Time where
  hour : Nat
  minute : Nat
  second : Nat
  nanosecond : Nat
deriving DecidableEq, Repr

/-- The distance to universal time: none, or some minutes. -/
inductive Offset
  | zulu
  | minutes (n : Int)
deriving DecidableEq, Repr

structure Datetime where
  date : Option Date
  time : Option Time
  offset : Option Offset
deriving DecidableEq, Repr

/-! ## Writing -/

/-- A number with leading zeros up to a width. -/
def padded (width n : Nat) : List Char :=
  let ds := (toString n).toList
  List.replicate (width - ds.length) '0' ++ ds

/-- A date: year, month and day with dashes. -/
def Date.render (d : Date) : List Char :=
  padded 4 d.year ++ '-' :: padded 2 d.month ++ '-' :: padded 2 d.day

/-- A time: hour, minute and second with colons, and the fraction without its last zeros. -/
def Time.render (t : Time) : List Char :=
  let fraction :=
    if t.nanosecond = 0 then []
    else '.' :: ((padded 9 t.nanosecond).reverse.dropWhile (· == '0')).reverse
  padded 2 t.hour ++ ':' :: padded 2 t.minute ++ ':' :: padded 2 t.second ++ fraction

/-- An offset: the letter for none, or hours and minutes with a sign. -/
def Offset.render : Offset → List Char
  | zulu => ['Z']
  | minutes n =>
    (if n < 0 then '-' else '+') :: padded 2 (n.natAbs / 60) ++ ':' :: padded 2 (n.natAbs % 60)

def Datetime.render (d : Datetime) : String :=
  let date := (d.date.map Date.render).getD []
  let time := (d.time.map Time.render).getD []
  let offset := (d.offset.map Offset.render).getD []
  let mark := if d.date.isSome && d.time.isSome then ['T'] else []
  String.ofList (date ++ mark ++ time ++ offset)

/-! ## Reading -/

def decimal? (cs : List Char) : Option Nat :=
  if cs.isEmpty || !cs.all Char.isDigit then none
  else some (cs.foldl (fun n c => n * 10 + (c.toNat - 48)) 0)

/-- Reads a number of a fixed width within bounds. -/
def fixed? (width low high : Nat) (cs : List Char) : Option (Nat × List Char) := do
  let n ← decimal? (cs.take width)
  if cs.length < width ∨ n < low ∨ high < n then none else some (n, cs.drop width)

def char? (c : Char) : List Char → Option (List Char)
  | [] => none
  | d :: rest => if d = c then some rest else none

def isLeap (year : Nat) : Bool :=
  year % 4 == 0 && (year % 100 != 0 || year % 400 == 0)

def daysIn (year month : Nat) : Nat :=
  match month with
  | 2 => if isLeap year then 29 else 28
  | 4 | 6 | 9 | 11 => 30
  | _ => 31

def date? (cs : List Char) : Option (Date × List Char) := do
  let (year, cs) ← fixed? 4 0 9999 cs
  let (month, cs) ← fixed? 2 1 12 (← char? '-' cs)
  let (day, cs) ← fixed? 2 1 (daysIn year month) (← char? '-' cs)
  some (⟨year, month, day⟩, cs)

/-- Reads a fraction of a second, if there is one; only nine digits of it count. -/
def fraction? : List Char → Option (Nat × List Char)
  | '.' :: cs => do
    let ds := cs.takeWhile Char.isDigit
    let kept := ds.take 9
    let n ← decimal? kept
    some (n * Nat.pow 10 (9 - kept.length), cs.drop ds.length)
  | cs => some (0, cs)

/-- Reads a time whose hour is not after the last one. -/
def time? (lastHour : Nat) (cs : List Char) : Option (Time × List Char) := do
  let (hour, cs) ← fixed? 2 0 lastHour cs
  let (minute, cs) ← fixed? 2 0 59 (← char? ':' cs)
  let (second, cs) ← fixed? 2 0 60 (← char? ':' cs)
  let (nanosecond, cs) ← fraction? cs
  some (⟨hour, minute, second, nanosecond⟩, cs)

/-- Reads an offset, if there is one, whose hours and minutes are not above the last ones. It is a
day at most. -/
def offset? (lastHour lastMinute : Nat) : List Char → Option (Option Offset × List Char)
  | [] => some (none, [])
  | c :: cs =>
    if c = 'Z' ∨ c = 'z' then some (some .zulu, cs)
    else if c = '+' ∨ c = '-' then do
      let (hours, cs) ← fixed? 2 0 lastHour cs
      let (minutes, cs) ← fixed? 2 0 lastMinute (← char? ':' cs)
      let n : Int := hours * 60 + minutes
      if 1440 < n then none else some (some (.minutes (if c = '-' then -n else n)), cs)
    else some (none, c :: cs)

/-- The character between a date and a time. -/
def isDateMark (c : Char) : Bool :=
  c == 'T' || c == 't' || c == ' '

/-- The date, the time, or the date and time that a whole text stands for. -/
def Datetime.ofText? (cs : List Char) : Option Datetime :=
  match date? cs with
  | some (date, []) => some ⟨some date, none, none⟩
  | some (date, mark :: cs) => do
    if isDateMark mark then
      let (time, cs) ← time? 23 cs
      let (offset, cs) ← offset? 23 59 cs
      if cs.isEmpty then some ⟨some date, some time, offset⟩ else none
    else none
  | none => do
    let (time, cs) ← time? 23 cs
    if cs.isEmpty then some ⟨none, some time, none⟩ else none

/-- As `ofText?`, but less strict: the hour 24 counts, an offset may have any digits, and one may
stand behind a date without a time. -/
def Datetime.ofLaxText? (cs : List Char) : Option Datetime :=
  match date? cs with
  | some (date, mark :: cs) => do
    let (time, cs) ←
      if isDateMark mark then (time? 24 cs).map fun (time, cs) => (some time, cs)
      else some (none, mark :: cs)
    let (offset, cs) ← offset? 99 99 cs
    if cs.isEmpty then some ⟨some date, time, offset⟩ else none
  | some (date, []) => some ⟨some date, none, none⟩
  | none => do
    let (time, cs) ← time? 24 cs
    if cs.isEmpty then some ⟨none, some time, none⟩ else none

end Chassis.Toml
