/-!
# Registries

A registry keeps what was registered under each key, in the order of registration. A key is
registered once: `insert?` answers none when an equal key is there.
-/

namespace Overlay
set_option autoImplicit false

/-- Entries in the order of registration. -/
structure Registry (κ ν : Type) where
  entries : List (κ × ν) := []

namespace Registry

variable {κ ν : Type} [BEq κ]

instance : Inhabited (Registry κ ν) := ⟨{}⟩

/-- What is registered under a key. -/
def find? (r : Registry κ ν) (k : κ) : Option ν :=
  (r.entries.find? fun e => e.1 == k).map (·.2)

/-- Something is registered under the key. -/
def contains (r : Registry κ ν) (k : κ) : Bool :=
  r.entries.any fun e => e.1 == k

/-- Registers a value under a new key. -/
def insert? (r : Registry κ ν) (k : κ) (v : ν) : Option (Registry κ ν) :=
  if r.contains k then none else some ⟨r.entries ++ [(k, v)]⟩

omit [BEq κ] in
/-- The keys, in the order of registration. -/
def keys (r : Registry κ ν) : List κ :=
  r.entries.map (·.1)

omit [BEq κ] in
/-- The number of entries. -/
def size (r : Registry κ ν) : Nat :=
  r.entries.length

end Registry

end Overlay
