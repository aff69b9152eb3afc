import DreamStudio.Library.Table
import Mathlib.Data.String.Basic

namespace DreamStudio.Projections

open Library

/-- The keys of `_TABLE_FOR_SOURCE`. -/
inductive Source
  | business
  | ai
  deriving DecidableEq

inductive CanonicalSource
  | business
  | ai
  | both
  deriving DecidableEq

def CanonicalSource.sources : CanonicalSource → List Source
  | .business => [.business]
  | .ai => [.ai]
  | .both => [.business, .ai]

/-- A canonical row as `_row_to_event` hands it to a projection. -/
structure Event where
  eventId : String
  eventType : String
  eventTimestamp : String
  payload : Json
  projectId : Text := none
  milestoneId : Text := none
  workOrderId : Text := none
  taskId : Text := none

/-- The primary key of the canonical tables. -/
def Event.key (e : Event) : Option String := some e.eventId

/-- `_build_type_filter`: an entry with a `%` is a LIKE pattern, any other is compared as it is. -/
def matchesTypeFilter (types : List String) (eventType : String) : Bool :=
  types.any fun et =>
    if contains et "%" then like et.toList eventType.toList else eventType = et

end DreamStudio.Projections
