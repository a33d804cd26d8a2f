import CipherEngine.Storage.Arena
import CipherEngine.Proofs.Computation

/-!
# Copies between slots

A copy that fits its slot goes through, and is then what it would be unchecked. The two contexts
have one size, so a commit and a reset of the context always go through.
-/
namespace CipherEngine

namespace Arena

variable {m : Type → Type} [Monad m]

/-- A copy that ends inside its slot is made. -/
theorem write_of_fits {arena : Arena} {slot : Slot} {start : Nat} {bytes : Bytes}
    (fits : start + bytes.length ≤ arena.layout.size slot) :
    (arena.write slot start bytes : Checked m Arena) = pure (arena.put slot start bytes) := by
  rw [write, if_pos fits]

/-- One that does not is a fault. -/
theorem write_of_exceeds {arena : Arena} {slot : Slot} {start : Nat} {bytes : Bytes}
    (exceeds : ¬ start + bytes.length ≤ arena.layout.size slot) :
    (arena.write slot start bytes : Checked m Arena) =
      throw (.window (start + bytes.length) (arena.layout.size slot)) := by
  rw [write, if_neg exceeds]

/-- A copy over a whole slot is a fault if its length is not that of the slot. -/
theorem copy_of_ne {arena : Arena} {slot : Slot} {bytes : Bytes} [LawfulMonad m]
    (differ : bytes.length ≠ arena.layout.size slot) :
    (arena.copy slot bytes : Checked m Arena) =
      throw (.mismatch (arena.layout.size slot) bytes.length) := by
  rw [copy, Checked.replace, length_read, if_neg differ, throw_bind]

variable [LawfulMonad m]

/-- A copy of the length of the slot is made. -/
theorem copy_of_width {arena : Arena} {slot : Slot} {bytes : Bytes}
    (width : bytes.length = arena.layout.size slot) :
    (arena.copy slot bytes : Checked m Arena) = pure (arena.put slot 0 bytes) := by
  rw [copy, Checked.replace, length_read, if_pos width, pure_bind]

/-- The arena whose template is the live context. -/
def committed (arena : Arena) : Arena := arena.put .template 0 (arena.read .live)

/-- The arena whose live context is the template. -/
def restored (arena : Arena) : Arena := arena.put .live 0 (arena.read .template)

/-- The live context always fits the template. -/
theorem commit_eq (arena : Arena) : (arena.commit : Checked m Arena) = pure arena.committed :=
  copy_of_width (length_read arena .live)

/-- And the template fits the live context. -/
theorem restore_eq (arena : Arena) : (arena.restore : Checked m Arena) = pure arena.restored :=
  copy_of_width (length_read arena .template)

omit [Monad m] [LawfulMonad m] in
/-- After a commit the template is the live context. -/
theorem read_committed_template (arena : Arena) :
    arena.committed.read .template = arena.read .live :=
  read_put_whole _ (length_read _ _)

/-- A commit leaves the other slots alone. -/
theorem read_committed_of_ne (arena : Arena) {slot : Slot} (differ : Slot.template ≠ slot) :
    arena.committed.read slot = arena.read slot := read_put_of_ne _ _ _ differ

end Arena

end CipherEngine
