/-
  CourseCharts — the order of requests.

  Responses may arrive in any order.  A `Sequencer` numbers the requests and
  accepts only the response of the latest one, and that only once.
-/
namespace CourseCharts.Request

/-- The number of a request. -/
structure Token where
  number : Nat
  deriving DecidableEq, Repr

/-- The number of the latest request, or zero before the first, and the number
    of the latest accepted response. -/
structure Sequencer where
  issued : Nat
  completed : Option Nat
  deriving DecidableEq, Repr

namespace Sequencer

/-- No requests yet. -/
def initial : Sequencer := ⟨0, none⟩

/-- Numbers a new request. -/
def issue (s : Sequencer) : Token × Sequencer :=
  (⟨s.issued + 1⟩, { s with issued := s.issued + 1 })

/-- The latest request. -/
def latest (s : Sequencer) : Option Token :=
  if 0 < s.issued then some ⟨s.issued⟩ else none

/-- Whether a request is the latest one. -/
def isCurrent (s : Sequencer) (t : Token) : Bool := t.number == s.issued

/-- Accepts a response, unless its request is not the latest one or already has
    a response. -/
def complete (s : Sequencer) (t : Token) : Bool × Sequencer :=
  if s.isCurrent t && s.completed != some t.number then
    (true, { s with completed := some t.number })
  else (false, s)

end Sequencer

end CourseCharts.Request
