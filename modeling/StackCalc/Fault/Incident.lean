import StackCalc.Fault.Message

/-
  This file sorts incidents, failures that carry no cause
  of their own but only a name and a message, into the
  kinds of faults.

  Key definitions include:
    * `StackCalc.IncidentClass`
    * `StackCalc.Incident`
    * `StackCalc.Incident.kind`
    * `StackCalc.Incident.classify`
-/

------------------------------------------------------------
-- Incidents
------------------------------------------------------------

namespace StackCalc

/- The classes of incidents that matter for sorting. -/
inductive IncidentClass where
  | recursion
  | arithmetic
  | argument
  | missingKey
  | other
deriving Repr, DecidableEq

/-
  A failure with its name and the message it was given, if
  any.
-/
structure Incident where
  group : IncidentClass
  name : Text
  message : Option Text

namespace Incident

/- The text of an incident; a missing key is quoted. -/
def text (i : Incident) : Text :=
  match i.message, i.group with
  | none, _ => []
  | some m, .missingKey => Text.quoted m
  | some m, _ => m

end Incident

end StackCalc

------------------------------------------------------------
-- Sorting
------------------------------------------------------------

namespace StackCalc

/- An incident that has been sorted, with its token. -/
structure Classified where
  kind : FaultKind
  message : Text
  token : Option Text

namespace Incident

/- Words of messages that are about shapes. -/
def shapeMarkers : List Text :=
  [ "shape".toList, "dimension".toList,
    "incompatible".toList, "size".toList,
    "length".toList, "must be square".toList ]

/-
  Whether a message is about shapes, whatever the case of
  its letters. The markers have ASCII letters only.
-/
def isAboutShapes (message : Text) : Bool :=
  let lowered := message.map Char.toLower
  shapeMarkers.any fun m => Text.holds m lowered

/- The kind of fault an incident with this message is. -/
def kindOf
    (group : IncidentClass)
    (message : Text) : FaultKind :=
  match group with
  | .recursion => .tooDeep
  | .arithmetic => .arithmetic
  | _ =>
      if isAboutShapes message then .dimension
      else if group = .argument then .typing
      else .runtime

/-
  Sort an incident at `token`. An incident without a text
  is known by its name.
-/
def classify
    (i : Incident)
    (token : Option Text) : Classified :=
  let message := if i.text.isEmpty then i.name else i.text
  ⟨kindOf i.group message, message, token⟩

end Incident

namespace Classified

/- The message with the token. -/
def text (c : Classified) : Text :=
  c.kind.describe c.message c.token none

end Classified

end StackCalc
