import Overlay.Error.Report

/-!
# Mitigation options

Two flags ask for the mitigation of property updates and of compound assignments. A record spells each
flag in camel case or in snake case; `Options.ofRecord` reads it entry by entry and stops at the
first entry with an unknown key or a value that is no truth value. `mitigate` leaves the source
alone when no flag is set, and needs a mitigator when one is.
-/

namespace Overlay.Mitigation
set_option autoImplicit false

open Error (Report)

/-- The mitigations that can be asked for. -/
inductive Flag where
  | propertyUpdate
  | compoundAssignment
  deriving DecidableEq, Repr

/-- The flags, in order. -/
def Flag.all : List Flag :=
  [.propertyUpdate, .compoundAssignment]

/-- The name of a flag. -/
def Flag.name : Flag → Text
  | .propertyUpdate => "rewrite_property_update_expr"
  | .compoundAssignment => "rewrite_property_compound_assignment_expr"

/-- The camel case spelling of a flag. -/
def Flag.wireName : Flag → Text
  | .propertyUpdate => "rewritePropertyUpdateExpr"
  | .compoundAssignment => "rewritePropertyCompoundAssignmentExpr"

/-- The flag that a key spells. -/
def Flag.ofKey? : PlainDatum → Option Flag
  | .str key => Flag.all.find? fun f => f.name == key || f.wireName == key
  | _ => none

/-- Which mitigations are asked for. -/
structure Options where
  propertyUpdate : Bool := false
  compoundAssignment : Bool := false
  deriving DecidableEq, Repr

namespace Options

/-- The value of a flag. -/
def get (o : Options) : Flag → Bool
  | .propertyUpdate => o.propertyUpdate
  | .compoundAssignment => o.compoundAssignment

/-- The options with one flag given a value. -/
def set (o : Options) : Flag → Bool → Options
  | .propertyUpdate, b => { o with propertyUpdate := b }
  | .compoundAssignment, b => { o with compoundAssignment := b }

/-- The names of the flags that are set. -/
def enabled (o : Options) : List Text :=
  (Flag.all.filter o.get).map Flag.name

/-- Some flag is set. -/
def anyEnabled (o : Options) : Bool :=
  !o.enabled.isEmpty

/-- A failure of the option record. -/
def badOption (message : Text) : Report :=
  .plain .configuration .badOption message

/-- Reads one entry of a record into the options. -/
def readEntry (o : Options) (key value : PlainDatum) : Except Report Options :=
  match Flag.ofKey? key with
  | none => .error (badOption ("unknown mitigation option " ++ key.text))
  | some flag =>
    match value with
    | .bool b => .ok (o.set flag b)
    | _ => .error (badOption ("mitigation option " ++ key.text ++ " must be a boolean, got " ++
        value.text))

/-- Reads a record: a later entry wins, and the first wrong entry is reported. -/
def ofRecord (record : List (PlainDatum × PlainDatum)) : Except Report Options :=
  record.foldlM (fun o entry => readEntry o entry.1 entry.2) {}

end Options

end Overlay.Mitigation
