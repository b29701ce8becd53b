import Overlay.World

/-!
# The text of values

Messages and log lines show a value: plain data as data are shown, a function by its name, a host
function by its `name` member, an object by its visible members that are no objects, and a plugin by
its settings, its roots and its outer bindings. A list or a plugin that is met again inside itself shows
as dots. There are texts that cannot be written: a host function may
be its own name, and an integer may have too many digits. `World.describe` is the text of a value by
itself, and `World.bare` the text of a value inside a sentence, where a text has no quotes.
-/

namespace Overlay
set_option autoImplicit false

namespace World

/-- The most digits that the text of an integer may have. -/
def digitLimit : Nat := 4300

/-- How many levels the text of a value may have. -/
def textDepth : Nat := 980

/-- The text of an integer. -/
def intText (i : Int) : Except Fault Text :=
  if i.natAbs < Nat.pow 10 digitLimit then .ok (toString i) else .error .badValue

/-- The text of a function. -/
def describeFn (w : World) (f : FnId) : Text :=
  (w.fns[f]?.getD default).describe

/-- The value is an object. -/
def isObject : Value → Bool
  | .obj _ => true
  | _ => false

/-- The text of a value inside a sentence, given the texts of values by themselves. -/
def bareBy (describe : Value → Except Fault Text) : Value → Except Fault Text
  | .str s => .ok s
  | v => describe v

/-- What a host function shows as its name. -/
def shownName (w : World) (describe : Value → Except Fault Text) (name : Value) : Except Fault Text :=
  if w.isTruthy name then bareBy describe name else .ok "(anonymous)"

/-- What an object shows of a member. -/
def shownMember (describe : Value → Except Fault Text) (p : Property) : Except Fault Text := do
  return (← bareBy describe p.name.value) ++ "=" ++ (← describe p.value)

/-- The text of an object, given the texts of values. -/
def describeObject (w : World) (describe : Value → Except Fault Text) (x : Obj) : Except Fault Text :=
  match x.host with
  | some _ => do
    let name := (x.bag.find? "name").elim (.str "") (·.value)
    return "<HostFunction " ++ (← w.shownName describe name) ++ ">"
  | none => do
    let shown ← (x.bag.props.filter fun p => p.enumerable && !isObject p.value).mapM
      (shownMember describe)
    return if shown.isEmpty then "<JSObject>" else "<JSObject " ++ Text.join ", " shown ++ ">"

/-- The text of some members in their order. -/
def tupleText : List Text → Text
  | [member] => "(" ++ member ++ ",)"
  | members => "(" ++ Text.join ", " members ++ ")"

/-- The text of a structure: its word and its fields with their texts. -/
def fieldsText (word : Text) (fields : List (Text × Text)) : Text :=
  word ++ "(" ++ Text.join ", " (fields.map fun f => f.1 ++ "=" ++ f.2) ++ ")"

/-- The text of a host. -/
def hostText : Text := "<valija.host.Host object>"

/-- The text of some settings, given the texts of values. -/
def describeConfig (describe : Value → Except Fault Text) (c : Config) : Except Fault Text := do
  let members (ds : List PlainDatum) : Except Fault Text :=
    tupleText <$> ds.mapM fun d => describe d.toValue
  return fieldsText "RuntimeConfig"
    [("coercion_members", ← members c.coercionMembers),
      ("hidden_supplement_names", ← members c.hiddenNames),
      ("receiver_param", Text.quote c.receiver),
      ("redacted_body", Text.quote c.redactedBody),
      ("disfunction_source", ← describe c.constructorText.toValue)]

/-- The text of a plugin's roots, given the texts of values. -/
def describeRoots (describe : Value → Except Fault Text) (roots : Roots) : Except Fault Text := do
  return fieldsText "Roots"
    [("object_prototype", ← describe (.obj roots.objectPrototype)),
      ("disfunction_prototype", ← describe (.obj roots.functionPrototype)),
      ("disfunction", ← describe (.obj roots.function)),
      ("object_shadow", ← describe (.obj roots.objectShadow))]

/-- The text of a plugin, given the texts of values. -/
def describePlugin (describe : Value → Except Fault Text) (p : Plugin) : Except Fault Text := do
  return fieldsText "Valija"
    [("host", hostText),
      ("config", ← describeConfig describe p.config),
      ("roots", ← describeRoots describe p.roots),
      ("_outers", ← describe p.outers),
      ("_access", "<valija.access.PropertyAccess object>"),
      ("_shadows", "<valija.shadows.ShadowResolver object>"),
      ("_supplements", "<valija.supplement.SupplementResolver object>"),
      ("_factory", "<valija.disfunction.DisfunctionFactory object>")]

/-- What a text stands inside of: lists, by their marks, and plugins. -/
structure Surroundings where
  lists : List Nat := []
  plugins : List PluginId := []

/-- The text of a value on so many levels, inside some lists and plugins. An object and a plugin take three
levels, any other value one. -/
def describeWithin (w : World) : Nat → Surroundings → Value → Except Fault Text
  | 0, _, _ => .error .tooDeep
  | fuel + 1, inside, v =>
    match v with
    | .int i => intText i
    | .list mark items =>
      if mark.any inside.lists.contains then .ok "[...]"
      else
        Datum.listText <$>
          items.mapM (describeWithin w fuel { inside with lists := mark.toList ++ inside.lists })
    | .record entries =>
      Datum.recordText <$> entries.mapM fun e => do
        return (← describeWithin w fuel inside e.1, ← describeWithin w fuel inside e.2)
    | .obj o =>
      match fuel with
      | fuel + 2 => w.describeObject (describeWithin w fuel inside) (w.heap.get o)
      | _ => .error .tooDeep
    | .fn f => .ok (w.describeFn f)
    | .ref (.table _) => .ok "<valija.shadows.ShadowTable object>"
    | .ref (.host _) => .ok hostText
    | .ref (.plugin p) =>
      match inside.plugins.contains p, fuel with
      | true, _ => .ok "..."
      | false, fuel + 2 =>
        describePlugin (describeWithin w fuel { inside with plugins := p :: inside.plugins })
          (w.plugin p)
      | false, _ => .error .tooDeep
    | _ => .ok v.leafText

/-- The text of a value by itself. -/
def describe (w : World) (v : Value) : Except Fault Text :=
  w.describeWithin textDepth {} v

/-- The text of a value inside a sentence. -/
def bare (w : World) (v : Value) : Except Fault Text :=
  bareBy w.describe v

end World

end Overlay
