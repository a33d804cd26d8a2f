import CipherEngine.Aes.Cipher
import Mathlib.Data.List.GetD

/-!
# Round keys in a context

A context holds the round keys of encryption and then those of the equivalent inverse cipher,
sixteen bytes each. Here both halves are written as blocks by number, and the block with a
number is read back from its place. The words of the expanded key are taken as they are; how
each follows from those before it plays no part.
-/
namespace CipherEngine.Aes

/-- A key has words. -/
theorem Variant.keyWords_pos (variant : Variant) : 0 < variant.keyWords := by
  cases variant <;> decide

/-- And no more of them than its expansion. -/
theorem Variant.keyWords_le (variant : Variant) : variant.keyWords ≤ 4 * (variant.rounds + 1) := by
  rw [Variant.rounds]
  omega

/-- The first four bytes of a string are read as a word. -/
theorem Word.toBytes_read {bytes : Bytes} (long : 4 ≤ bytes.length) :
    (Word.read bytes).toBytes = bytes.take 4 := by
  match bytes, long with
  | _ :: _ :: _ :: _ :: _, _ => rfl

namespace Block

/-- Four successive words: the round key with a number. -/
def ofWords (word : Nat → Word) (number : Nat) : Block :=
  ⟨word (4 * number), word (4 * number + 1), word (4 * number + 2), word (4 * number + 3)⟩

/-- The bytes of as many blocks, in order. -/
def concat (blocks : Nat → Block) (count : Nat) : Bytes :=
  (List.range count).flatMap fun number => (blocks number).toBytes

/-- A block that is written as bytes is read as it was. -/
@[simp] theorem read_toBytes_self (block : Block) : read block.toBytes = block := rfl

/-- Sixteen bytes are read as a block. -/
theorem toBytes_read {bytes : Bytes} (width : bytes.length = 16) :
    (read bytes).toBytes = bytes := by
  have first : (Word.read bytes).toBytes = bytes.take 4 := Word.toBytes_read (by omega)
  have later (start : Nat) (inside : start + 4 ≤ 16) :
      (Word.read (bytes.drop start)).toBytes = (bytes.drop start).take 4 :=
    Word.toBytes_read (by rw [List.length_drop]; omega)
  calc (read bytes).toBytes
      = bytes.take 4 ++ (bytes.drop 4).take 4 ++ (bytes.drop 8).take 4 ++
          (bytes.drop 12).take 4 := by
        simp only [read, toBytes, first, later 4 (by decide), later 8 (by decide),
          later 12 (by decide)]
    _ = bytes.take 16 := by rw [← List.take_add, ← List.take_add, ← List.take_add]
    _ = bytes := by rw [← width, List.take_length]

/-- Four words are as many bytes as a block. -/
theorem flatMap_words (word : Nat → Word) (count : Nat) :
    ((List.range (4 * count)).flatMap fun index => (word index).toBytes) =
      concat (ofWords word) count := by
  induction count with
  | zero => rfl
  | succ count inductionHypothesis =>
    rw [concat, List.range_succ, List.flatMap_append, ← concat, ← inductionHypothesis,
      Nat.mul_succ, List.range_add, List.flatMap_append]
    rfl

/-- Blocks one after the other take sixteen bytes each. -/
@[simp] theorem length_concat (blocks : Nat → Block) (count : Nat) :
    (concat blocks count).length = 16 * count := by
  induction count with
  | zero => rfl
  | succ count inductionHypothesis =>
    rw [concat, List.range_succ, List.flatMap_append, ← concat, List.length_append,
      inductionHypothesis, Nat.mul_succ]
    rfl

/-- The first block, before the others. -/
theorem concat_succ (blocks : Nat → Block) (count : Nat) :
    concat blocks (count + 1) =
      (blocks 0).toBytes ++ concat (fun number => blocks (number + 1)) count := by
  rw [concat, List.range_succ_eq_map, List.flatMap_cons, List.flatMap_map]
  rfl

/-- A block is read from its place, whatever stands behind the blocks. -/
theorem read_concat (blocks : Nat → Block) {number count : Nat} (inside : number < count)
    (rest : Bytes) : read ((concat blocks count ++ rest).drop (16 * number)) = blocks number := by
  induction number generalizing blocks count with
  | zero =>
    obtain ⟨count, rfl⟩ := Nat.exists_eq_add_of_lt inside
    rw [Nat.zero_add, concat_succ, List.append_assoc, Nat.mul_zero, List.drop_zero, read_toBytes]
  | succ number inductionHypothesis =>
    match count, inside with
    | count + 1, inside =>
      have later := inductionHypothesis (fun number => blocks (number + 1))
        (Nat.lt_of_succ_lt_succ inside)
      rw [concat_succ, List.append_assoc, Nat.mul_succ, Nat.add_comm, ← List.drop_drop,
        List.drop_left' (length_toBytes _), later]

/-- Blocks are cut apart and read back in order. -/
theorem map_read_cut (blocks : Nat → Block) (count : Nat) (rest : Bytes) :
    (Bytes.cut 16 count (concat blocks count ++ rest)).map read =
      (List.range count).map blocks := by
  induction count generalizing blocks with
  | zero => rfl
  | succ count inductionHypothesis =>
    have later := inductionHypothesis fun number => blocks (number + 1)
    rw [concat_succ, List.append_assoc, Bytes.cut, List.take_left' (length_toBytes _),
      List.drop_left' (length_toBytes _), List.map_cons, later, read_toBytes_self,
      List.range_succ_eq_map, List.map_cons, List.map_map]
    rfl

end Block

/-- Expansion puts as many words behind those it has as it is told to. -/
theorem length_extend (keyWords count index : Nat) (constant : UInt8) (latest : List Word) :
    (extend keyWords count index constant latest).length = latest.length + count := by
  induction count generalizing index constant latest with
  | zero => rw [extend, List.length_reverse, Nat.add_zero]
  | succ count inductionHypothesis =>
    rw [extend, inductionHypothesis, List.length_cons, Nat.succ_add_eq_add_succ]

/-- Each round key has four words. -/
theorem length_expandWords (variant : Variant) (key : Bytes) :
    (expandWords variant key).length = 4 * (variant.rounds + 1) := by
  rw [expandWords, length_extend, List.length_reverse, keyToWords, List.length_map,
    Bytes.length_cut, Nat.add_sub_cancel' variant.keyWords_le]

/-- The word of an expanded key with a number. -/
def expandedWord (variant : Variant) (key : Bytes) (index : Nat) : Word :=
  (expandWords variant key).getD index Word.zero

/-- The round key of encryption for a round. -/
def roundKey (variant : Variant) (key : Bytes) : (round : Nat) → Block :=
  Block.ofWords (expandedWord variant key)

/-- The round key of the equivalent inverse cipher for a round: that of encryption for the round
as far from the end, mixed back unless it is the first or the last one. -/
def inverseRoundKey (variant : Variant) (key : Bytes) (round : Nat) : Block :=
  let source := roundKey variant key (variant.rounds - round)
  if round = 0 ∨ round = variant.rounds then source else source.unmixColumns

/-- The words of an expanded key, by number. -/
theorem expandWords_eq (variant : Variant) (key : Bytes) :
    expandWords variant key =
      (List.range (4 * (variant.rounds + 1))).map (expandedWord variant key) := by
  apply List.ext_getElem
  · rw [length_expandWords, List.length_map, List.length_range]
  · intro index inside _
    rw [List.getElem_map, List.getElem_range, expandedWord, List.getD_eq_getElem _ _ inside]

/-- The first half of a schedule: the round keys of encryption. -/
theorem encryptionKeys_eq (variant : Variant) (key : Bytes) :
    encryptionKeys variant key = Block.concat (roundKey variant key) (variant.rounds + 1) := by
  rw [encryptionKeys, expandWords_eq, List.flatMap_map]
  exact Block.flatMap_words _ _

/-- A schedule: the round keys of encryption, and those of the equivalent inverse cipher. -/
theorem scheduleOf_eq (variant : Variant) (key : Bytes) :
    scheduleOf variant key =
      Block.concat (roundKey variant key) (variant.rounds + 1) ++
        Block.concat (inverseRoundKey variant key) (variant.rounds + 1) := by
  have read : (Bytes.cut 16 (variant.rounds + 1) (encryptionKeys variant key)).map Block.read =
      (List.range (variant.rounds + 1)).map (roundKey variant key) := by
    have blocks := Block.map_read_cut (roundKey variant key) (variant.rounds + 1) []
    rwa [List.append_nil, ← encryptionKeys_eq] at blocks
  have back : decryptionKeys variant.rounds (encryptionKeys variant key) =
      Block.concat (inverseRoundKey variant key) (variant.rounds + 1) := by
    rw [decryptionKeys, read, Block.concat]
    congr 1
    funext round
    have source : ((List.range (variant.rounds + 1)).map (roundKey variant key)).getD
        (variant.rounds - round) Block.zero = roundKey variant key (variant.rounds - round) := by
      have inside : variant.rounds - round <
          ((List.range (variant.rounds + 1)).map (roundKey variant key)).length := by
        rw [List.length_map, List.length_range]
        exact Nat.lt_succ_of_le (Nat.sub_le _ _)
      rw [List.getD_eq_getElem _ _ inside, List.getElem_map, List.getElem_range]
    rw [decryptionKey, source, inverseRoundKey]
  rw [scheduleOf, back, encryptionKeys_eq]

/-- A schedule fills a context. -/
theorem length_scheduleOf (variant : Variant) (key : Bytes) :
    (scheduleOf variant key).length = variant.contextSize := by
  rw [scheduleOf_eq, List.length_append, Block.length_concat, Block.length_concat,
    Variant.contextSize, Variant.scheduleLength, Nat.two_mul]

/-- A key of the right length is accepted, and its schedule takes the place of the whole
context. -/
theorem setKey_eq {variant : Variant} {context key : Bytes}
    (size : context.length = variant.contextSize) (width : key.length = variant.keyLength) :
    setKey variant context key = ⟨.ok (), scheduleOf variant key⟩ := by
  have same := (length_scheduleOf variant key).trans size.symm
  rw [setKey, if_pos width, Bytes.overlay, ← same, List.take_length,
    List.drop_eq_nil_of_le (Nat.le_of_eq same.symm), List.append_nil]

/-- A round key of encryption is read from its place in the schedule. -/
theorem read_scheduleOf {variant : Variant} (key : Bytes) {round : Nat}
    (inside : round ≤ variant.rounds) :
    Block.read ((scheduleOf variant key).drop (16 * round)) = roundKey variant key round := by
  rw [scheduleOf_eq]
  exact Block.read_concat _ (Nat.lt_succ_of_le inside) _

/-- And one of the equivalent inverse cipher from its place in the second half. -/
theorem read_scheduleOf_inverse {variant : Variant} (key : Bytes) {round : Nat}
    (inside : round ≤ variant.rounds) :
    Block.read (((scheduleOf variant key).drop variant.scheduleLength).drop (16 * round)) =
      inverseRoundKey variant key round := by
  have behind := Block.read_concat (inverseRoundKey variant key) (Nat.lt_succ_of_le inside) []
  rw [List.append_nil] at behind
  have half : (Block.concat (roundKey variant key) (variant.rounds + 1)).length =
      variant.scheduleLength := Block.length_concat _ _
  rwa [scheduleOf_eq, List.drop_left' half]

end CipherEngine.Aes
