/-!
# Byte strings

Everything the engine moves is a byte string: keys, initialisation vectors,
contexts, blocks and messages. The operations here write *over* a string and
never change its length, whatever the other argument is. The laws beside them
say where each byte of a result comes from, and that cutting into blocks keeps
the bytes and their order.
-/
namespace CipherEngine

/-- A byte string. -/
abbrev Bytes := List UInt8

namespace Bytes

/-- The string of `length` zero bytes. -/
def zeros (length : Nat) : Bytes := List.replicate length 0

/-- Exclusive or with `key`. Bytes that `key` does not reach keep their value,
and key bytes past the end are not used. -/
def mask (bytes key : Bytes) : Bytes :=
  List.zipWith (fun byte pad => byte ^^^ pad) bytes key ++ bytes.drop key.length

/-- Writes `fresh` over the front of `old`. What does not fit is dropped. -/
def overlay (fresh old : Bytes) : Bytes :=
  fresh.take old.length ++ old.drop fresh.length

/-- Writes `fresh` over `old` from `offset` on. What does not fit is dropped. -/
def overlayAt (offset : Nat) (fresh old : Bytes) : Bytes :=
  old.take offset ++ overlay fresh (old.drop offset)

/-- The `length` bytes from `offset` on, fewer where the string ends earlier. -/
def window (offset length : Nat) (bytes : Bytes) : Bytes :=
  (bytes.drop offset).take length

/-- The last `length` bytes, or the whole string if it is shorter. -/
def ending (length : Nat) (bytes : Bytes) : Bytes := bytes.drop (bytes.length - length)

/-- Brings a string to `length` by dropping the end or appending zero bytes. -/
def fit (length : Nat) (bytes : Bytes) : Bytes :=
  overlay bytes (zeros length)

/-- The first `count` blocks of `size` bytes. -/
def cut (size : Nat) : (count : Nat) → Bytes → List Bytes
  | 0, _ => []
  | count + 1, bytes => bytes.take size :: cut size count (bytes.drop size)

/-- Blocks that a string of so many bytes begins, a short last one included. -/
def blockCount (size length : Nat) : Nat :=
  length / size + if length % size = 0 then 0 else 1

/-- The number that the bytes write in base 256, first byte most significant. -/
def bigEndian (bytes : Bytes) : Nat :=
  bytes.foldl (fun value byte => value * 256 + byte.toNat) 0

/-- The number that the bytes write in base 256, first byte least significant. -/
def littleEndian : Bytes → Nat
  | [] => 0
  | byte :: rest => byte.toNat + 256 * littleEndian rest

/-- The `length` low base-256 digits of a number, least significant first. -/
def ofLittleEndian : (length : Nat) → Nat → Bytes
  | 0, _ => []
  | length + 1, value => UInt8.ofNat value :: ofLittleEndian length (value / 256)

/-- So many zero bytes are that many bytes. -/
@[simp] theorem length_zeros (length : Nat) : (zeros length).length = length :=
  List.length_replicate

/-- Masking keeps the length of what is masked, however long the mask is. -/
@[simp] theorem length_mask (bytes key : Bytes) : (mask bytes key).length = bytes.length := by
  simp only [mask, List.length_append, List.length_zipWith, List.length_drop]
  omega

/-- Writing over a buffer keeps its length, even if what is written is longer. -/
@[simp] theorem length_overlay (fresh old : Bytes) : (overlay fresh old).length = old.length := by
  simp only [overlay, List.length_append, List.length_take, List.length_drop]
  omega

/-- And so it does from any place on. -/
@[simp] theorem length_overlayAt (offset : Nat) (fresh old : Bytes) :
    (overlayAt offset fresh old).length = old.length := by
  simp only [overlayAt, List.length_append, List.length_take, length_overlay, List.length_drop]
  omega

/-- What is cut or padded to a length has that length. -/
@[simp] theorem length_fit (length : Nat) (bytes : Bytes) : (fit length bytes).length = length := by
  simp [fit]

/-- A string of the length asked for fits as it is. -/
theorem fit_whole {length : Nat} {bytes : Bytes} (width : bytes.length = length) :
    fit length bytes = bytes := by
  subst width
  rw [fit, overlay, length_zeros, List.take_length,
    List.drop_eq_nil_of_le (Nat.le_of_eq (length_zeros _)), List.append_nil]

/-- A string that is shorter than asked for is padded with zero bytes. -/
theorem fit_append {length : Nat} {bytes : Bytes} (short : bytes.length ≤ length) :
    fit length bytes = bytes ++ zeros (length - bytes.length) := by
  rw [fit, overlay, length_zeros, List.take_of_length_le short, zeros, List.drop_replicate, zeros]

/-- A window inside the string has the length asked for. -/
theorem length_window {offset length : Nat} {bytes : Bytes}
    (inside : offset + length ≤ bytes.length) : (window offset length bytes).length = length := by
  simp only [window, List.length_take, List.length_drop]
  omega

/-- A window inside the front of a string does not see the end. -/
theorem window_append {offset length : Nat} {front : Bytes} (rest : Bytes)
    (inside : offset + length ≤ front.length) :
    window offset length (front ++ rest) = window offset length front := by
  rw [window, window, List.drop_append_of_le_length (by omega), List.take_append_of_le_length]
  rw [List.length_drop]
  omega

/-- A window on zero bytes. -/
theorem window_zeros {offset length total : Nat} (inside : offset + length ≤ total) :
    window offset length (zeros total) = zeros length := by
  rw [window, zeros, List.drop_replicate, List.take_replicate, Nat.min_eq_left (by omega), zeros]

/-- The window on the middle part of a string. -/
theorem window_middle (before middle rest : Bytes) :
    window before.length middle.length (before ++ (middle ++ rest)) = middle := by
  simp [window]

/-- A cut into so many blocks gives that many, though the last of them may be short. -/
@[simp] theorem length_cut (size count : Nat) (bytes : Bytes) :
    (cut size count bytes).length = count := by
  induction count generalizing bytes with
  | zero => rfl
  | succ count inductionHypothesis => simp [cut, inductionHypothesis]

/-- Cutting loses nothing: the blocks in order are the front of the string. -/
theorem flatten_cut (size count : Nat) (bytes : Bytes) :
    (cut size count bytes).flatten = bytes.take (count * size) := by
  induction count generalizing bytes with
  | zero => simp [cut]
  | succ count inductionHypothesis =>
    simp only [cut, List.flatten_cons, inductionHypothesis]
    rw [Nat.succ_mul, Nat.add_comm, List.take_add]

/-- Every block that is cut inside the string is whole. -/
theorem length_of_mem_cut {size count : Nat} {bytes block : Bytes}
    (inside : count * size ≤ bytes.length) (member : block ∈ cut size count bytes) :
    block.length = size := by
  induction count generalizing bytes with
  | zero => simp [cut] at member
  | succ count inductionHypothesis =>
    rw [Nat.succ_mul] at inside
    rcases List.mem_cons.mp member with rfl | later
    · rw [List.length_take]
      omega
    · exact inductionHypothesis (by rw [List.length_drop]; omega) later

/-- Only the bytes of the blocks matter for cutting them. -/
theorem cut_take (size count : Nat) (bytes : Bytes) :
    cut size count (bytes.take (count * size)) = cut size count bytes := by
  induction count generalizing bytes with
  | zero => rfl
  | succ count inductionHypothesis =>
    have first : size ≤ (count + 1) * size := Nat.le_mul_of_pos_left size (Nat.succ_pos count)
    have others : (count + 1) * size - size = count * size := by
      rw [Nat.succ_mul, Nat.add_sub_cancel]
    rw [cut, cut, List.take_take, Nat.min_eq_left first, List.drop_take, others,
      inductionHypothesis]

/-- The blocks of a string are those in front and those after them. -/
theorem cut_add (size first second : Nat) (bytes : Bytes) :
    cut size (first + second) bytes =
      cut size first bytes ++ cut size second (bytes.drop (first * size)) := by
  induction first generalizing bytes with
  | zero => simp [cut]
  | succ first inductionHypothesis =>
    rw [Nat.succ_add, cut, cut, inductionHypothesis, List.drop_drop, Nat.succ_mul,
      Nat.add_comm size, List.cons_append]

/-- Blocks by number are windows of one size. -/
theorem cut_eq_map (size count : Nat) (bytes : Bytes) :
    cut size count bytes =
      (List.range count).map fun number => window (number * size) size bytes := by
  induction count with
  | zero => rfl
  | succ count inductionHypothesis =>
    rw [cut_add, inductionHypothesis, List.range_succ, List.map_append]
    rfl

/-- Blocks inside the front of a string do not see the end. -/
theorem cut_append {size count : Nat} {front : Bytes} (inside : count * size ≤ front.length)
    (rest : Bytes) : cut size count (front ++ rest) = cut size count front := by
  rw [← cut_take, List.take_append_of_le_length inside, cut_take]

/-- A tail of at most one block begins one block more than stand before it. -/
theorem blockCount_add {size count tail : Nat} (filled : 0 < tail) (short : tail ≤ size) :
    blockCount size (count * size + tail) = count + 1 := by
  have positive : 0 < size := Nat.lt_of_lt_of_le filled short
  rw [blockCount, Nat.mul_comm, Nat.mul_add_div positive, Nat.mul_add_mod]
  by_cases whole : tail = size
  · rw [whole, Nat.div_self positive, Nat.mod_self, if_pos rfl]
  · have below : tail < size := Nat.lt_of_le_of_ne short whole
    rw [Nat.div_eq_of_lt below, Nat.mod_eq_of_lt below, if_neg (Nat.ne_of_gt filled)]

/-- A byte of the string lies in one of the blocks that it begins. -/
theorem div_lt_blockCount {size length place : Nat} (inside : place < length)
    (positive : 0 < size) :
    place / size < blockCount size length := by
  have total := Nat.div_add_mod' length size
  rw [blockCount, Nat.div_lt_iff_lt_mul positive, Nat.add_mul]
  split
  · omega
  · have rest := Nat.mod_lt length positive
    omega

/-- Blocks of one length, joined. -/
theorem length_flatten {size : Nat} {blocks : List Bytes}
    (whole : ∀ block ∈ blocks, block.length = size) :
    blocks.flatten.length = blocks.length * size := by
  induction blocks with
  | nil => simp
  | cons block rest inductionHypothesis =>
    have later := inductionHypothesis fun other member =>
      whole other (List.mem_cons_of_mem block member)
    rw [List.flatten_cons, List.length_append, later, whole block List.mem_cons_self,
      List.length_cons, Nat.succ_mul, Nat.add_comm]

/-- Blocks that were joined are cut apart again. -/
theorem cut_flatten {size : Nat} {blocks : List Bytes}
    (whole : ∀ block ∈ blocks, block.length = size) :
    cut size blocks.length blocks.flatten = blocks := by
  induction blocks with
  | nil => rfl
  | cons block rest inductionHypothesis =>
    have width : block.length = size := whole block List.mem_cons_self
    rw [List.length_cons, cut, List.flatten_cons, List.take_left' width, List.drop_left' width,
      inductionHypothesis fun other member => whole other (List.mem_cons_of_mem block member)]

/-- Nothing is left of nothing. -/
@[simp] theorem nil_mask (key : Bytes) : mask [] key = [] := by
  simp [mask]

/-- A mask without bytes changes nothing. -/
@[simp] theorem mask_nil (bytes : Bytes) : mask bytes [] = bytes := by
  simp [mask]

/-- A mask goes byte by byte. -/
@[simp] theorem cons_mask_cons (byte pad : UInt8) (bytes key : Bytes) :
    mask (byte :: bytes) (pad :: key) = (byte ^^^ pad) :: mask bytes key := by
  simp [mask]

/-- A masked byte. Past its end the key masks with zero. -/
theorem getD_mask {bytes : Bytes} (key : Bytes) {index : Nat} (inside : index < bytes.length) :
    (mask bytes key).getD index 0 = bytes.getD index 0 ^^^ key.getD index 0 := by
  induction bytes generalizing key index with
  | nil => exact absurd inside (Nat.not_lt_zero index)
  | cons byte rest inductionHypothesis =>
    cases key with
    | nil => simp
    | cons pad key =>
      cases index with
      | zero => simp
      | succ index => simpa using inductionHypothesis key (Nat.lt_of_succ_lt_succ inside)

/-- Masking twice with the same key changes nothing. -/
theorem mask_mask (bytes key : Bytes) : mask (mask bytes key) key = bytes := by
  induction bytes generalizing key with
  | nil => simp
  | cons byte rest inductionHypothesis =>
    cases key with
    | nil => simp
    | cons pad key =>
      rw [cons_mask_cons, cons_mask_cons, inductionHypothesis, UInt8.xor_assoc, UInt8.xor_self,
        UInt8.xor_zero]

/-- A mask in two pieces. -/
theorem mask_append {front pad : Bytes} (same : front.length = pad.length) (rest more : Bytes) :
    mask (front ++ rest) (pad ++ more) = mask front pad ++ mask rest more := by
  have exact : front.drop pad.length = [] := List.drop_eq_nil_of_le (Nat.le_of_eq same)
  rw [mask, mask, mask, List.zipWith_append same, exact, List.length_append, ← same,
    List.drop_length_add_append, List.append_nil, List.append_assoc]

/-- A mask that is used up leaves the rest alone. -/
theorem mask_append_of_le {front key : Bytes} (short : key.length ≤ front.length) (rest : Bytes) :
    mask (front ++ rest) key = mask front key ++ rest := by
  induction front generalizing key with
  | nil =>
    rw [List.length_nil, Nat.le_zero, List.length_eq_zero_iff] at short
    simp [short]
  | cons byte front inductionHypothesis =>
    cases key with
    | nil => simp
    | cons pad key =>
      rw [List.cons_append, cons_mask_cons, cons_mask_cons,
        inductionHypothesis (Nat.le_of_succ_le_succ short), List.cons_append]

/-- No more of a mask is used than there are bytes. -/
theorem mask_take (bytes key : Bytes) : mask bytes (key.take bytes.length) = mask bytes key := by
  induction bytes generalizing key with
  | nil => simp
  | cons byte bytes inductionHypothesis =>
    cases key with
    | nil => simp
    | cons pad key => simp [inductionHypothesis]

/-- Masked zero bytes are the mask. -/
theorem mask_zeros {length : Nat} {key : Bytes} (width : key.length = length) :
    mask (zeros length) key = key := by
  subst width
  induction key with
  | nil => rfl
  | cons pad key inductionHypothesis =>
    rw [List.length_cons, zeros, List.replicate_succ, cons_mask_cons, UInt8.zero_xor]
    exact congrArg (pad :: ·) inductionHypothesis

/-- Two masks of one length are one mask. -/
theorem mask_mask_of_length {first second : Bytes} (same : first.length = second.length)
    (bytes : Bytes) : mask (mask bytes first) second = mask bytes (mask first second) := by
  induction bytes generalizing first second with
  | nil => simp
  | cons byte bytes inductionHypothesis =>
    cases first with
    | nil =>
      rw [List.length_nil] at same
      simp [List.length_eq_zero_iff.mp same.symm]
    | cons pad first =>
      cases second with
      | nil => simp at same
      | cons other second =>
        rw [cons_mask_cons, cons_mask_cons, cons_mask_cons, cons_mask_cons, UInt8.xor_assoc,
          inductionHypothesis (Nat.succ.inj same)]

/-- A mask that changes nothing is zero as far as it is used. -/
theorem mask_eq_self_iff {bytes first second : Bytes} (same : first.length = second.length)
    (reached : first.length ≤ bytes.length) :
    mask bytes (mask first second) = bytes ↔ first = second := by
  induction first generalizing bytes second with
  | nil =>
    rw [List.length_nil] at same
    simp [List.length_eq_zero_iff.mp same.symm]
  | cons pad first inductionHypothesis =>
    cases second with
    | nil => simp at same
    | cons other second =>
      cases bytes with
      | nil => simp at reached
      | cons byte bytes =>
        have later := inductionHypothesis (Nat.succ.inj same) (Nat.le_of_succ_le_succ reached)
        have now := @UInt8.xor_right_inj (pad ^^^ other) 0 byte
        rw [UInt8.xor_zero, UInt8.xor_eq_zero_iff] at now
        rw [cons_mask_cons, cons_mask_cons, List.cons.injEq, List.cons.injEq, now, later]

/-- A byte after an overlay comes from the fresh string as far as that reaches. -/
theorem getElem?_overlay (fresh old : Bytes) (index : Nat) :
    (overlay fresh old)[index]? =
      if index < old.length then (fresh[index]?).or old[index]? else none := by
  simp only [overlay]
  grind

/-- A byte of a buffer that was written over is fresh where the write has reached, inside the
buffer and inside what was written, and the old one everywhere else. -/
theorem getElem?_overlayAt (offset : Nat) (fresh old : Bytes) (index : Nat) :
    (overlayAt offset fresh old)[index]? =
      if offset ≤ index ∧ index < old.length ∧ index - offset < fresh.length then
        fresh[index - offset]?
      else old[index]? := by
  simp only [overlayAt, List.getElem?_append, getElem?_overlay]
  grind

/-- A byte of a window is the byte of the buffer as far into it as the window begins. There is none
past the end of the window. -/
theorem getElem?_window (offset length : Nat) (bytes : Bytes) (index : Nat) :
    (window offset length bytes)[index]? =
      if index < length then bytes[offset + index]? else none := by
  simp only [window]
  grind

/-- A string of the same length takes the place of the whole. -/
theorem overlayAt_whole {fresh old : Bytes} (width : fresh.length = old.length) :
    overlayAt 0 fresh old = fresh := by
  rw [overlayAt, overlay, List.take_zero, List.drop_zero, List.nil_append, ← width,
    List.take_length, List.drop_eq_nil_of_le (Nat.le_of_eq width.symm), List.append_nil]

/-- As much of a string as fits, over zero bytes, is the string brought to their length. -/
theorem overlayAt_take_zeros (length : Nat) (bytes : Bytes) :
    overlayAt 0 (bytes.take length) (zeros length) = fit length bytes := by
  have short := Nat.min_comm length bytes.length
  rw [overlayAt, List.take_zero, List.nil_append, List.drop_zero, fit, overlay, overlay,
    length_zeros, List.take_take, Nat.min_self, List.length_take, zeros, List.drop_replicate,
    List.drop_replicate]
  congr 2
  omega

/-- A string that fits behind `offset` takes the place of as many bytes. -/
theorem overlayAt_of_inside {offset : Nat} {fresh old : Bytes}
    (inside : offset + fresh.length ≤ old.length) :
    overlayAt offset fresh old = old.take offset ++ fresh ++ old.drop (offset + fresh.length) := by
  have short : fresh.length ≤ (old.drop offset).length := by
    rw [List.length_drop]
    omega
  rw [overlayAt, overlay, List.take_of_length_le short, List.drop_drop, List.append_assoc]

/-- A window that an overlay does not meet is left alone. -/
theorem window_overlayAt_of_apart {offset length start : Nat} {fresh : Bytes} (old : Bytes)
    (apart : start + fresh.length ≤ offset ∨ offset + length ≤ start) :
    window offset length (overlayAt start fresh old) = window offset length old := by
  apply List.ext_getElem?
  intro index
  simp only [getElem?_window, getElem?_overlayAt]
  grind

/-- An overlay inside a window is an overlay of the window. -/
theorem window_overlayAt_of_inside {offset length start : Nat} {fresh old : Bytes}
    (inside : start + fresh.length ≤ length) :
    window offset length (overlayAt (offset + start) fresh old) =
      overlayAt start fresh (window offset length old) := by
  have width : (window offset length old).length = min length (old.length - offset) := by
    simp [window]
  apply List.ext_getElem?
  intro index
  simp only [getElem?_window, getElem?_overlayAt, width]
  grind

/-- A suffix is the ending of its length. -/
theorem eq_ending {front bytes : Bytes} {length : Nat} (width : front.length = length)
    (suffix : front <:+ bytes) : front = ending length bytes := by
  rw [ending, ← width]
  exact List.suffix_iff_eq_drop.mp suffix

/-- What stands before a suffix is an ending of what the suffix leaves. -/
theorem eq_ending_take {before front bytes : Bytes} {length : Nat}
    (width : before.length = length) (suffix : before ++ front <:+ bytes) :
    before = ending length (bytes.take (bytes.length - front.length)) := by
  obtain ⟨rest, rfl⟩ := suffix
  have shorter : (rest ++ (before ++ front)).take
      ((rest ++ (before ++ front)).length - front.length) = rest ++ before := by
    rw [← List.append_assoc, List.length_append, Nat.add_sub_cancel, List.take_left]
  rw [shorter]
  exact eq_ending width (List.suffix_append _ _)

/-- A number is written in exactly the bytes that are asked for, cut if it needs more. -/
@[simp] theorem length_ofLittleEndian (length value : Nat) :
    (ofLittleEndian length value).length = length := by
  induction length generalizing value with
  | zero => rfl
  | succ length inductionHypothesis => simp [ofLittleEndian, inductionHypothesis]

/-- The two orders of digits are each other's reverse. -/
theorem bigEndian_eq_littleEndian_reverse (bytes : Bytes) :
    bigEndian bytes = littleEndian bytes.reverse := by
  have unfolded (digits : Bytes) :
      littleEndian digits = digits.foldr (fun byte value => value * 256 + byte.toNat) 0 := by
    induction digits with
    | nil => rfl
    | cons byte rest inductionHypothesis =>
      simp only [littleEndian, List.foldr_cons, ← inductionHypothesis]
      omega
  rw [unfolded, List.foldr_reverse]
  rfl

end Bytes

end CipherEngine
