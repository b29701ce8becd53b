import Overlay.Plugin.Outers
import Overlay.Script.Scope
import Overlay.Text.Scrub

/-!
# Operations of scripts

Each operation checks the number of its arguments and calls the library. An argument that the operation
cannot take is refused as a bad call; an operand that is not of the kind which the operation is about
makes the script wrong.
-/

namespace Overlay.Script
set_option autoImplicit false

/-- Names as a new list. -/
def namesList (names : List Name) : Act Value :=
  Act.newList (names.map (·.value))

/-- The operations on an object itself. -/
def ObjectOp.run (op : ObjectOp) (args : List Value) : Act Value := do
  let w ← get
  match args with
  | .obj o :: rest =>
    let bag := (w.heap.get o).bag
    match op, rest with
    | .hasOwn, [n] => return .bool (bag.owns (← Key.ofValue n))
    | .getOwn, [n] => return bag.get (← Key.ofValue n)
    | .getOwn, [n, absent] =>
      let k ← Key.ofValue n
      return if bag.owns k then bag.get k else absent
    | .has, [n] => return .bool (← w.heap.has o (← Key.ofValue n))
    | .lookup, [n] => w.heap.lookup o (← Key.ofValue n)
    | .ownKeys, [] => namesList bag.names
    | .isEnumerable, [n] => return .bool (bag.isEnumerable (← Key.ofValue n))
    | .enumerableKeys, [] => namesList (← w.heap.enumerableKeys o)
    | .put, [n, x] =>
      Act.putProperty o n x true
      return x
    | .put, [n, x, visible] =>
      Act.putProperty o n x (w.isTruthy visible)
      return x
    | .delete, [n] => return .bool (← Act.eraseProperty o n)
    | .freeze, [] => Host.freeze (.obj o)
    | .proto, [] => return (w.heap.get o).proto
    | .frozen, [] => return .bool bag.frozen
    | .chain, [] => Act.newList ((← w.heap.atEnd o (w.heap.ancestors o)).map .obj)
    | .describe, [] => return .str (Text.scrub (← w.describe (.obj o)))
    | _, _ => Act.stop .badCall
  | _ => Act.stop .badScript

/-- The attributes of a host function. -/
def FunctionOp.run (op : FunctionOp) (args : List Value) : Act Value := do
  match args with
  | [.obj o] =>
    let x := (← get).heap.get o
    match x.host with
    | some f =>
      match op with
      | .name => return if x.bag.owns "name" then x.bag.get "name" else .str ""
      | .arity => return f.arity
      | .source => return f.source
      | .category => return .int f.category
      | .prototype => return f.prototype
    | none => Act.stop .badScript
  | _ => Act.stop .badScript

/-- The words for the kinds of plain values. -/
def primitiveWords : List (Text × Primitive) :=
  [("str", .str), ("int", .int), ("float", .float), ("bool", .bool), ("list", .list), ("null", .null),
    ("undefined", .undefined)]

/-- The kind of plain values that a word names. -/
def primitiveOf? : Value → Option Primitive
  | .str word => primitiveWords.lookup word
  | _ => none

/-- The part stands somewhere in a text. -/
def occursIn (part : Text) : Text → Bool
  | [] => part.isEmpty
  | r :: rest => part.isPrefixOf (r :: rest) || occursIn part rest

/-- Leaves out what a value holds: the items of a list, the keys of a record or a table, and the parts
of a text, which has only texts as parts. -/
def excludeBy (w : World) (v : Value) : Host.Exclusion := fun n =>
  match v with
  | .list _ items => .ok (items.any fun x => Key.of? x == some n.key)
  | .record entries => .ok (entries.any fun e => Key.of? e.1 == some n.key)
  | .ref (.table t) => .ok ((w.table t).contains n)
  | .str text =>
    match n.value with
    | .str part => .ok (occursIn part text)
    | _ => .error .badCall
  | _ => .error .badCall

/-- The category of a callable as a value: a host function's number, and a new list of a word and the
function for any other. -/
def categoryValue (f : Value) : Act Value := do
  match Host.category? (← get) f with
  | some (.host n) => return .int n
  | some (.plain _) => Act.newList [.str "py", f]
  | none => Act.stop .badCall

/-- A name and a value from what is to be a pair. -/
def pairOf (v : Value) : Except Fault (Name × Value) :=
  match v.parts? with
  | some [k, x] => do return (← Name.ofValue k, x)
  | some _ => .error .badValue
  | none => .error .badCall

/-- The members that a value lists: none if it does not count as true, the entries of a record, and
otherwise its parts, each of which has to be a pair. -/
def membersOf (w : World) (v : Value) : Except Fault (List (Name × Value)) :=
  match v with
  | .record entries => entries.mapM fun e => do return (← Name.ofValue e.1, e.2)
  | _ =>
    if w.isTruthy v then
      match v.parts? with
      | some parts => parts.mapM pairOf
      | none => .error .badCall
    else .ok []

/-- The operations of a host. -/
def HostOp.run (invoke : Invoker) (h : HostId) (op : HostOp) (args : List Value) : Act Value := do
  let w ← get
  match op, args with
  | .beget, [x] => return .obj (← Host.beget x)
  | .beget, [x, members] =>
    Host.checkPrototype w x
    return .obj (← Act.alloc { proto := x, bag := .ofMembers (← membersOf w members) })
  | .freeze, [x] => Host.freeze x
  | .typeTag, [x] => return .str (w.tagWord x)
  | .enforceType, [x, tag] =>
    Act.enforceTag x tag (.str "value")
    return x
  | .enforceType, [x, tag, what] =>
    Act.enforceTag x tag what
    return x
  | .isCallable, [x] => return .bool (w.isCallable x)
  | .prototypeOf, [x] => Host.prototypeOf w h x
  | .hasOwn, [x, n] => return .bool (← Host.hasOwn w x n)
  | .has, [x, n] => return .bool (← Host.has h x n)
  | .read, [x, n] => Host.read h x n
  | .put, [x, n, y] => Host.put x n y
  | .delete, [x, n] => return .bool (← Host.delete x n)
  | .enumerableKeys, [x] => namesList (← Host.enumerableKeys w h x)
  | .isEnumerable, [x, n] => return .bool (← Host.isEnumerable w x n)
  | .inheritsFrom, [x, p] => return .bool (← Host.inheritsFrom w h x p)
  | .instanceOf, [x, f] => return .bool (← Host.instanceOf w h x f)
  | .directConstructor, [x] => Host.directConstructor w h x
  | .category, [f] =>
    Act.enforceCallable f "func_category argument"
    categoryValue f
  | .superConstructor, [f] =>
    Act.enforceCallable f "super_ctor argument"
    Host.superConstructor w h f
  | .ownNames, [f] => namesList (← Host.ownNames w f Host.excludeNone)
  | .ownNames, [f, x] => namesList (← Host.ownNames w f (excludeBy w x))
  | .methodNames, [f] => namesList (← Host.methodNames w f Host.excludeNone)
  | .methodNames, [f, x] => namesList (← Host.methodNames w f (excludeBy w x))
  | .call, [f, this, xs] => Host.callSpread invoke f this xs
  | .construct, [f, xs] => Host.construct invoke f xs
  | .arity, [f] => return Host.arity w f
  | .sourceText, [f] => Host.sourceText f
  | .registerPrimitive, kind :: rest =>
    let _ ← Key.ofValue kind
    match primitiveOf? kind, rest with
    | some kind, [f] =>
      Host.registerPrimitive h kind f
      return .null
    | some _, _ => Act.stop .badCall
    | none, _ => Act.stop .noEntry
  | .defineFunction, [name, impl] => return .obj (← Host.defineFunction h (.value impl) { name := name })
  | .defineConstructor, [name] =>
    return .obj (← Host.defineConstructor h { name := name } .null .null [] [])
  | .defineConstructor, [name, init] =>
    return .obj (← Host.defineConstructor h { name := name } init .null [] [])
  | _, _ => Act.stop .badCall

/-- A category as a plugin lists it. -/
def listedCategory : Category → Value
  | .host n => .int n
  | .plain _ => .str "py"

/-- The operations of a plugin. -/
def PluginOp.run (invoke : Invoker) (p : PluginId) (op : PluginOp) (args : List Value) :
    Act Value := do
  let w ← get
  let nothing : Value := .list none []
  match op, args with
  | .typeOf, [x] => return .str (← Plugin.typeOf w p x).word
  | .instanceOf, [x, f] => return .bool (← Plugin.instanceOf p x f)
  | .read, [x, n] => Plugin.read p x n
  | .write, [x, n, y] => Plugin.write p x n y
  | .remove, [x, n] => return .bool (← Plugin.remove p x n)
  | .keys, [x] => namesList (← Plugin.keys p x)
  | .canRead, [n, x] => return .bool (← Plugin.canRead p n x)
  | .apply, [f, this, xs] => Plugin.apply invoke p f this xs
  | .callFunction, [f] => Plugin.callFunction invoke p f nothing
  | .callFunction, [f, xs] => Plugin.callFunction invoke p f xs
  | .callMethod, [x, n] => Plugin.callMethod invoke p x n nothing
  | .callMethod, [x, n, xs] => Plugin.callMethod invoke p x n xs
  | .construct, [f] => Plugin.construct invoke p f nothing
  | .construct, [f, xs] => Plugin.construct invoke p f xs
  | .emulate, [f] => Plugin.emulate p f .null
  | .emulate, [f, n] => Plugin.emulate p f n
  | .forwarder, [n] => Plugin.forwarder p n
  | .getOuters, [] => Plugin.getOuters p
  | .readOuter, [n] => Plugin.readOuter p n
  | .setOuter, [n, x] => Plugin.setOuter p n x
  | .initOuter, [n] =>
    Plugin.initOuter p n
    return .null
  | .shadowOf, [f] => return .obj (← Plugin.shadowOf p f)
  | .pseudoPrototype, [f] => Plugin.pseudoPrototype p f
  | .supplementOf, [x] => Plugin.supplementOf p x
  | .shadowCount, [] => return .int (w.plugin p).shadows.size
  | .categories, [] => Act.newList ((w.plugin p).shadows.keys.map listedCategory)
  | .assign, [.str _, _] => Act.stop .fixedPlugin
  | _, _ => Act.stop .badCall

/-- The length of a text, a list, a record or a table. -/
def lengthOf (w : World) (v : Value) : Except Fault Value :=
  match v with
  | .ref (.table t) => .ok (.int (w.table t).size)
  | _ =>
    match v.parts? with
    | some parts => .ok (.int parts.length)
    | none => .error .badCall

/-- The operations on a table. What is no table still has a length and members if it has parts. -/
def TableOp.run (op : TableOp) (args : List Value) : Act Value := do
  let w ← get
  match op, args with
  | .new, [] =>
    set { w with tables := w.tables.push {} }
    return .ref (.table w.tables.size)
  | .size, [v] => lengthOf w v
  | _, .ref (.table t) :: rest =>
    let table := w.table t
    match op, rest with
    | .register, [k, x] =>
      match table.insert? (← Name.ofValue k) x with
      | some table =>
        set { w with tables := w.tables.setIfInBounds t table }
        return x
      | none => Act.stop (.duplicateShadow (← w.describe k))
    | .find, [k] => return (table.find? (← Name.ofValue k)).getD .null
    | .contains, [k] => return .bool (table.contains (← Name.ofValue k))
    | .categories, [] => namesList table.keys
    | _, _ => Act.stop .badCall
  | .contains, [v, k] =>
    match v with
    | .list _ items => return .bool (items.any fun x => x.eqv k)
    | _ => return .bool (← excludeBy w v (← Name.ofValue k))
  | .contains, _ => Act.stop .badCall
  | .size, _ => Act.stop .badCall
  | _, _ => Act.stop .noMember

/-- The operation of an object that goes by the name of one of a host. -/
def HostOp.onObject? : HostOp → Option ObjectOp
  | .hasOwn => some .hasOwn
  | .has => some .has
  | .put => some .put
  | .delete => some .delete
  | .freeze => some .freeze
  | .enumerableKeys => some .enumerableKeys
  | .isEnumerable => some .isEnumerable
  | _ => none

/-- Performs an operation of a host on the value that stands for the host. Plugins, objects and tables
have operations of the same name; any other value has none. -/
def HostOp.runOn (invoke : Invoker) (target : Value) (op : HostOp) (args : List Value) : Act Value := do
  match target, op with
  | .ref (.host h), _ => op.run invoke h args
  | .ref (.plugin p), .instanceOf => PluginOp.run invoke p .instanceOf args
  | .ref (.plugin p), .construct => PluginOp.run invoke p .construct args
  | .ref (.table _), .read => TableOp.run .find (target :: args)
  | .obj o, .arity => Act.stop (if ((← get).heap.hostFn? o).isSome then .badCall else .noMember)
  | .obj _, _ =>
    match op.onObject? with
    | some op => op.run (target :: args)
    | none => Act.stop .noMember
  | _, _ => Act.stop .noMember

/-- Performs an operation of a plugin on the value that stands for the plugin. A host has operations of
the same name, and takes any attribute as a table does; any other value has none. -/
def PluginOp.runOn (invoke : Invoker) (target : Value) (op : PluginOp) (args : List Value) :
    Act Value :=
  match target, op with
  | .ref (.plugin p), _ => op.run invoke p args
  | .ref (.host h), .instanceOf => HostOp.run invoke h .instanceOf args
  | .ref (.host h), .construct => HostOp.run invoke h .construct args
  | .ref (.host _), .assign => return .null
  | .ref (.table _), .assign => return .null
  | _, _ => Act.stop .noMember

/-- Performs an operation on evaluated arguments. -/
def Operation.run (invoke : Invoker) (op : Operation) (args : List Value) : Act Value := do
  match op, args with
  | .value, [x] => return x
  | .dump, [x] => return x
  | .add, [.int x, .int y] => return .int (x + y)
  | .add, [.str x, .str y] => return .str (x ++ y)
  | .fail, [message] => Act.stop (.raised (← (← get).bare message))
  | .call, f :: xs => if (← get).isCallable f then invoke f xs else Act.stop .badScript
  | .object op, xs => op.run xs
  | .function op, xs => op.run xs
  | .host on op, xs => op.runOn invoke (← readCommon on) xs
  | .plugin on op, xs => op.runOn invoke (← readCommon on) xs
  | .table op, xs => op.run xs
  | _, _ => Act.stop .badScript

end Overlay.Script
