import CatalogCache.Number.Real

/-!
# Durations and instants

Both count microseconds. A duration is bounded: it has at most `maxDays` days on either side of
zero. The duration between two instants is reckoned in binary64 seconds.
-/

namespace CatalogCache

/-- Microseconds since the epoch. -/
abbrev Instant := Int

/-- A signed length of time in microseconds. -/
structure Duration where
  micros : Int
deriving DecidableEq

inductive DurationError
  | infinite
  | notANumber
  | range (days : Int)
  /-- So many days that not even their number is kept. -/
  | overflow
deriving DecidableEq

def DurationError.message : DurationError → Text
  | infinite => "cannot convert float infinity to integer"
  | notANumber => "cannot convert float NaN to integer"
  | range days =>
    List.flatten ["days=", Text.ofInt days, "; must have magnitude <= 999999999"]
  | overflow => "Python int too large to convert to C int"

namespace Duration

def microsPerSecond : Nat := 1000000
def secondsPerHour : Nat := 3600
def secondsPerDay : Nat := 86400
def maxDays : Nat := 999999999

def microsPerDay : Int := secondsPerDay * microsPerSecond

def zero : Duration := ⟨0⟩

def days (n : Nat) : Duration := ⟨n * microsPerDay⟩

def ofParts (days seconds micros : Int) : Duration :=
  ⟨days * microsPerDay + seconds * microsPerSecond + micros⟩

/-- Whole days, then seconds of the day, then microseconds of the second. Only days may be
negative. -/
def parts (d : Duration) : Int × Int × Int :=
  let ofDay := d.micros.fmod microsPerDay
  (d.micros.fdiv microsPerDay, ofDay / microsPerSecond, ofDay % microsPerSecond)

def ofMicros? (micros : Int) : Except DurationError Duration :=
  let days := micros.fdiv microsPerDay
  if days < -0x80000000 ∨ 0x80000000 ≤ days then .error .overflow
  else if days.natAbs ≤ maxDays then .ok ⟨micros⟩
  else .error (.range days)

/-- So many microseconds make no more days than a duration may have. -/
def InRange (micros : Int) : Prop :=
  -(maxDays * microsPerDay) ≤ micros ∧ micros < (maxDays + 1) * microsPerDay

instance (micros : Int) : Decidable (InRange micros) := inferInstanceAs (Decidable (_ ∧ _))

theorem ofMicros?_eq_ok_iff {micros : Int} {d : Duration} :
    ofMicros? micros = .ok d ↔ d = ⟨micros⟩ ∧ InRange micros := by
  have hday : microsPerDay = 86400000000 := rfl
  have hmax : maxDays = 999999999 := rfl
  rw [ofMicros?, InRange, Int.fdiv_eq_ediv_of_nonneg _ (by decide), hday, hmax]
  split
  · exact iff_of_false nofun (by omega)
  · split
    · rw [Except.ok.injEq, eq_comm]
      exact iff_self_and.mpr fun _ => by omega
    · exact iff_of_false nofun (by omega)

def isNegative (d : Duration) : Bool := d.micros < 0

/-! ## Numbers of a unit -/

def hour : Nat := secondsPerHour * microsPerSecond

/-- Microseconds of a number of units of so many. The fraction of a unit is scaled as a binary64
number, and the sum is rounded to whole microseconds, halfway to the even one. -/
def unitMicros (unit mantissa : Nat) (exponent : Int) : Nat :=
  let units := Binary64.ratio mantissa exponent
  let part := (Binary64.ofRatio false (units.1 % units.2 * unit) units.2).quotient
  Binary64.roundQuotient (units.1 / units.2 * unit * part.2 + part.1) part.2

def ofUnits (unit : Nat) : Binary64 → Except DurationError Duration
  | .nan => .error .notANumber
  | .infinite _ => .error .infinite
  | .finite negative mantissa exponent =>
    ofMicros? (Integer.signed negative (unitMicros unit mantissa exponent))

def ofHours : Binary64 → Except DurationError Duration := ofUnits hour

def ofSeconds : Binary64 → Except DurationError Duration := ofUnits microsPerSecond

/-! ## Text -/

def text (d : Duration) : Text :=
  let (days, seconds, micros) := d.parts
  let two (n : Int) : Text := Text.padZeros 2 (Text.ofInt n)
  let dayPart : Text :=
    if days = 0 then []
    else List.flatten [Text.ofInt days, if days.natAbs = 1 then " day, " else " days, "]
  let fraction : Text :=
    if micros = 0 then [] else List.flatten [".", Text.padZeros 6 (Text.ofInt micros)]
  List.flatten [dayPart, Text.ofInt (seconds / 3600), ":", two (seconds / 60 % 60), ":",
    two (seconds % 60), fraction]

/-- The constructor form of a duration: the parts that are not zero, by name. -/
def quoted (d : Duration) : Text :=
  let (days, seconds, micros) := d.parts
  let part (name : Text) (n : Int) : List Text :=
    if n = 0 then [] else [List.flatten [name, "=", Text.ofInt n]]
  let given := part "days" days ++ part "seconds" seconds ++ part "microseconds" micros
  let inside : Text := if given = [] then "0" else Text.join ", " given
  List.flatten ["datetime.timedelta(", inside, ")"]

end Duration

/-! ## Between instants -/

/-- An instant as clocks and file systems tell it, in seconds. -/
def Instant.seconds (t : Instant) : Binary64 :=
  .nearest (t < 0) t.natAbs Duration.microsPerSecond

/-- How long after another an instant seems to be. The seconds of both are subtracted as binary64
numbers, so microseconds may get lost between instants that are far from the epoch. -/
def Duration.since? (t earlier : Instant) : Except DurationError Duration :=
  ofSeconds ((Instant.seconds t).sub (Instant.seconds earlier))

end CatalogCache
