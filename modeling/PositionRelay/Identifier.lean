import PositionRelay.Record

/-!
# Issuing identifiers

Identifiers are issued in ascending order from a positive start. The counter is a 32-bit word: after
the largest identifier it becomes negative, and from then on nothing is issued.
-/
namespace PositionRelay

/-- The identifier to issue next; not positive once all are used up. -/
structure IdentifierSource where
  upcoming : ClientId := 1
deriving DecidableEq, Repr

namespace IdentifierSource

/-- A start that is not positive counts as one. -/
def startingAt (first : ClientId) : IdentifierSource := ⟨if first < 1 then 1 else first⟩

/-- The next identifier and the source after it. -/
def issue? (s : IdentifierSource) : Option (ClientId × IdentifierSource) :=
  if 0 < s.upcoming then some (s.upcoming, ⟨s.upcoming + 1⟩) else none

/-- The answers to `n` requests in a row. -/
def take (s : IdentifierSource) : Nat → List (Option ClientId)
  | 0 => []
  | n + 1 =>
      match s.issue? with
      | some (id, rest) => some id :: rest.take n
      | none => none :: s.take n

end IdentifierSource
end PositionRelay
