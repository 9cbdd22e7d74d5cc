import Argus.Domain.Capability
import Argus.Lib.Keyed

/-!
# Registering capabilities

The registry takes in a capability once, and forgets a server's namespace as a whole. The
descriptors modelled here declare no privileges, so the checks against the sandbox pass and the
one refusal is that of a duplicate.
-/

namespace Argus

/-- `mcp.<server>.`, under which the tools of a server register. -/
def mcpNamespace (server : String) : String := "mcp." ++ server ++ "."

namespace CapabilityRegistry

/-- `contains_key`. -/
def contains (registry : CapabilityRegistry) (id : CapabilityId) : Bool :=
  registry.descriptors.any fun d => d.id == id

/-- `register`; a capability that is there is refused. -/
def register (registry : CapabilityRegistry) (descriptor : CapabilityDescriptor) :
    Except String CapabilityRegistry :=
  if registry.contains descriptor.id then
    .error ("duplicate capability registration: " ++ descriptor.id.asStr)
  else
    .ok ⟨Keyed.insertNew CapabilityDescriptor.id registry.descriptors descriptor,
      Keyed.nodup_insertNew registry.keyed⟩

/-- Registers a capability that is not there yet: one that is keeps its descriptor. The startup's
loop does not ask `contains` first, and what it skips as refused is the same. -/
def registerNew (registry : CapabilityRegistry) (descriptor : CapabilityDescriptor) :
    CapabilityRegistry :=
  match registry.register descriptor with
  | .ok registered => registered
  | .error _ => registry

def adopt (registry : CapabilityRegistry) (descriptors : List CapabilityDescriptor) :
    CapabilityRegistry :=
  descriptors.foldl registerNew registry

/-- `unregister_server`, with the ids it removed. -/
def unregisterServer (registry : CapabilityRegistry) (server : String) :
    List CapabilityId × CapabilityRegistry :=
  let ofServer (d : CapabilityDescriptor) := d.id.startsWith (mcpNamespace server)
  ((registry.descriptors.filter ofServer).map CapabilityDescriptor.id,
    ⟨registry.descriptors.filter fun d => !ofServer d,
      registry.keyed.sublist (List.filter_sublist.map _)⟩)

/-! ### What an id reads -/

theorem get_eq_lookup (registry : CapabilityRegistry) (id : CapabilityId) :
    registry.get id = Keyed.lookup CapabilityDescriptor.id registry.descriptors id := rfl

theorem get_eq_some_iff {registry : CapabilityRegistry} {id : CapabilityId}
    {d : CapabilityDescriptor} : registry.get id = some d ↔ d ∈ registry.descriptors ∧ d.id = id :=
  Keyed.lookup_eq_some_iff registry.keyed

theorem descriptors_registerNew (registry : CapabilityRegistry) (d : CapabilityDescriptor) :
    (registry.registerNew d).descriptors =
      Keyed.insertNew CapabilityDescriptor.id registry.descriptors d := by
  unfold registerNew register
  by_cases hc : registry.contains d.id = true
  · rw [if_pos hc]
    exact (if_pos hc).symm
  · rw [if_neg hc]

theorem descriptors_adopt (registry : CapabilityRegistry)
    (descriptors : List CapabilityDescriptor) : (registry.adopt descriptors).descriptors =
      Keyed.adopt CapabilityDescriptor.id registry.descriptors descriptors := by
  induction descriptors generalizing registry with
  | nil => rfl
  | cons d ds ih =>
      rw [Keyed.adopt_cons, ← descriptors_registerNew]
      exact ih _

theorem adopt_append (registry : CapabilityRegistry) (ds ds' : List CapabilityDescriptor) :
    registry.adopt (ds ++ ds') = (registry.adopt ds).adopt ds' := List.foldl_append

@[simp] theorem get_adopt (registry : CapabilityRegistry)
    (descriptors : List CapabilityDescriptor) (id : CapabilityId) :
    (registry.adopt descriptors).get id =
      (registry.get id).or (Keyed.lookup CapabilityDescriptor.id descriptors id) := by
  rw [get_eq_lookup, descriptors_adopt, Keyed.lookup_adopt, get_eq_lookup]

@[simp] theorem get_unregisterServer (registry : CapabilityRegistry) (server : String)
    (id : CapabilityId) : (registry.unregisterServer server).2.get id =
      if id.startsWith (mcpNamespace server) then none else registry.get id :=
  Keyed.lookup_filter_not (CapabilityId.startsWith · (mcpNamespace server)) id

end CapabilityRegistry

end Argus
