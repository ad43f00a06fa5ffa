/-
**Python datetimes, with and without an offset.**

A `datetime` shows a wall clock and may know its offset from UTC.  Two datetimes can be ordered
when both know their offset (as instants) or when neither does (as wall clocks); ordering one of
each kind raises `TypeError`, which is what `Python.Datetime.lt?` says.

* `Python.Datetime` — wall clock in microseconds, optional offset;
* `Python.Datetime.lt?` — the comparison `a < b`;
* `Python.Datetime.dropOffset` — what a column that does not store the offset reads back.
-/

import EncryptChat.PyText

set_option relaxedAutoImplicit false
set_option autoImplicit false

namespace Python

/-- A `datetime`: the wall clock it shows, in microseconds since 1970-01-01T00:00:00, and its
offset from UTC when it has one. -/
structure Datetime where
  wall : ℤ
  offset : Option ℤ
  deriving DecidableEq

namespace Datetime

/-- The datetime of an instant, shown in UTC: `datetime.now(UTC)` and what is computed from it. -/
def utc (instant : ℤ) : Datetime := ⟨instant, some 0⟩

/-- The datetime has an offset. -/
def isAware (d : Datetime) : Bool := d.offset.isSome

/-- The comparison `a < b`. -/
def lt? (a b : Datetime) : Except PyError Bool :=
  match a.offset, b.offset with
  | some x, some y => .ok (decide (a.wall - x < b.wall - y))
  | none, none => .ok (decide (a.wall < b.wall))
  | _, _ => .error .typeError

/-- `d + timedelta(microseconds=n)`. -/
def addMicroseconds (d : Datetime) (n : ℤ) : Datetime := { d with wall := d.wall + n }

/-- The instant an aware datetime denotes, the wall clock of a naive one. -/
def instant (d : Datetime) : ℤ := d.wall - d.offset.getD 0

/-- `int(d.timestamp())` of a datetime after the epoch: whole seconds, truncated. -/
def timestampSeconds (d : Datetime) : ℤ := d.instant / 1000000

/-- The same wall clock without its offset. -/
def dropOffset (d : Datetime) : Datetime := { d with offset := none }

@[simp] theorem utc_instant (t : ℤ) : (utc t).instant = t := by simp [utc, instant]

@[simp] theorem addMicroseconds_utc (t n : ℤ) : (utc t).addMicroseconds n = utc (t + n) := rfl

@[simp] theorem lt?_utc (s t : ℤ) : (utc s).lt? (utc t) = .ok (decide (s < t)) := by
  simp [lt?, utc]

end Datetime

end Python
