import Overlay.Error.Report

/-!
# Faults

A fault is the reason why an operation stopped. The reasons that the library reports carry what
their report needs, and `Fault.report?` gives it; the others are refusals of the language that
surrounds the library, which have no report.
-/

namespace Overlay
set_option autoImplicit false

open Error (Report)

/-- What was to be done with a property. -/
inductive Access where
  | read
  | set
  | delete
  deriving DecidableEq, Repr

/-- The word for an access. -/
def Access.word : Access → Text
  | .read => "read"
  | .set => "set"
  | .delete => "delete"

/-- Why an operation stopped. -/
inductive Fault where
  /-- A property of null or undefined, shown as `base`, was accessed. -/
  | nullBase (access : Access) (name base : Text)
  /-- A property of a plain value or a plain function was to be set. -/
  | primitiveBase (name tag : Text)
  /-- A frozen object was to be changed. -/
  | frozen (access : Access) (name : Text)
  /-- A callable was required. -/
  | notCallable (what actual : Text)
  /-- A value of another type was required; `noted` tells whether the report notes the types. -/
  | wrongType (what expected actual : Text) (noted : Bool)
  /-- A prototype was to be neither an object nor null. -/
  | badPrototype (actual : Text)
  /-- The callable cannot make objects. -/
  | notConstructor (shown actual : Text)
  /-- The host's function constructor was called. -/
  | functionConstructor
  /-- The outer name cannot be reached. -/
  | unreachable (name : Text)
  /-- A category, shown as given, was registered twice. -/
  | duplicateShadow (category : Text)
  /-- A script's own failure. -/
  | raised (message : Text)
  /-- A call with arguments of a wrong number or kind, or of something that cannot be called. -/
  | badCall
  /-- An argument of the right kind that has no meaning there. -/
  | badValue
  /-- A member that the value does not have. -/
  | noMember
  /-- A word that names nothing. -/
  | noEntry
  /-- A plugin's own attributes are fixed. -/
  | fixedPlugin
  /-- A function cannot be declared with these names and parameters. -/
  | badDeclaration
  /-- A text with half a character has no bytes. -/
  | noBytes
  /-- The script is wrong: an unknown variable, or an operand of the wrong kind. -/
  | badScript
  /-- Calls or texts are nested too deeply. -/
  | tooDeep
  deriving DecidableEq, Repr

/-- The report of a fault, where the library reports it. -/
def Fault.report? : Fault → Option Report
  | .nullBase access name base =>
    some (.typeFailure .nullBase ("cannot " ++ access.word ++ " property '" ++ name ++ "' of " ++ base) "" "")
  | .primitiveBase name tag =>
    some (.typeFailure .primitiveBase ("cannot set property '" ++ name ++ "' on a " ++ tag) "" "")
  | .frozen access name => some (.frozen access.word (.str name) (.str "") (.str "") [])
  | .notCallable what actual => some (.notCallable what (.str actual) [] (.str ""))
  | .wrongType what expected actual noted =>
    some (.typeFailure .typeViolation (what ++ " must be of type " ++ expected)
      (if noted then expected else "") actual)
  | .badPrototype actual =>
    some (.typeFailure .typeViolation "prototype must be an object or null" "object" actual)
  | .notConstructor shown actual =>
    some (.typeFailure .typeViolation (shown ++ " is not a constructor") "constructor" actual)
  | .functionConstructor =>
    some (.typeFailure .typeViolation "Function constructor is not available inside the container" "" "")
  | .unreachable name => some (.reference (.str name) [] (.str ""))
  | .duplicateShadow category =>
    some (.plain .internal .duplicateShadow ("shadow for category " ++ category ++ " registered twice"))
  | .raised message => some (.plain .internal .internalError message)
  | .badCall | .badValue | .noMember | .noEntry | .fixedPlugin | .badDeclaration | .noBytes | .badScript
  | .tooDeep => none

end Overlay
