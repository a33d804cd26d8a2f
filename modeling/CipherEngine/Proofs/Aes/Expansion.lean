import CipherEngine.Proofs.Aes.StandardSteps

/-!
# Expansion of a key

The words of the standard's recurrence are what the loop of expansion appends. After any number
of turns it holds the words so far and the power of `x` that the standard has for the next
multiple of the key's length, since the constant is doubled once for each multiple passed. So
the round keys are those of the standard, and with them both halves of a context.
-/
namespace CipherEngine.Aes

section Loop

variable {keyWords : Nat}

/-- The round constant that the loop holds after as many turns. -/
def constantAfter (keyWords : Nat) : (turns : Nat) → UInt8
  | 0 => 1
  | turns + 1 => nextConstant keyWords (keyWords + turns) (constantAfter keyWords turns)

/-- The constant is a power of `x`: as many as there are multiples of the key's length among the
words that were made. -/
theorem constantAfter_eq (positive : 0 < keyWords) (turns : Nat) :
    constantAfter keyWords turns = Standard.powerOfX ((keyWords + turns - 1) / keyWords) := by
  induction turns with
  | zero =>
    rw [Nat.add_zero, Nat.div_eq_of_lt (by omega)]
    rfl
  | succ turns inductionHypothesis =>
    have before : keyWords + (turns + 1) - 1 = (keyWords + turns - 1) + 1 := by omega
    have index : keyWords + turns - 1 + 1 = keyWords + turns := by omega
    rw [constantAfter, inductionHypothesis, nextConstant, before, Nat.succ_div, index]
    by_cases multiple : (keyWords + turns) % keyWords = 0
    · rw [if_pos multiple, if_pos (Nat.dvd_of_mod_eq_zero multiple), Standard.powerOfX,
        (Standard.multiply_constants _).1]
    · rw [if_neg multiple, if_neg (mt Nat.mod_eq_zero_of_dvd multiple), Nat.add_zero]

/-- At a multiple of the key's length, the loop holds the round constant of the standard. -/
theorem constantAfter_multiple (positive : 0 < keyWords) (number : Nat) :
    constantAfter keyWords (keyWords * number) = Standard.rcon (number + 1) 0 := by
  have quotient : (keyWords + keyWords * number - 1) / keyWords = number := by
    have split : keyWords + keyWords * number - 1 = keyWords - 1 + keyWords * number := by omega
    rw [split, Nat.add_mul_div_left _ _ positive, Nat.div_eq_of_lt (by omega), Nat.zero_add]
  rw [constantAfter_eq positive, quotient]
  rfl

/-- The reduction shows in the ninth and the tenth constant. -/
example : [Standard.rcon 8 0, Standard.rcon 9 0, Standard.rcon 10 0] = [0x80, 0x1b, 0x36] := by
  decide +kernel

/-- Words by number, latest first, are found by counting back. -/
theorem getD_latest (word : Nat → Word) {back count : Nat} (inside : back < count) :
    ((List.range count).map word).reverse.getD back Word.zero = word (count - 1 - back) := by
  rw [List.getD_eq_getElem _ _ (by simpa using inside), List.getElem_reverse, List.getElem_map,
    List.getElem_range, List.length_map, List.length_range]

/-- The loop follows a recurrence: after some of its turns it holds the words so far. -/
theorem extend_after {word : Nat → Word} (positive : 0 < keyWords)
    (recurrence : ∀ turns, word (keyWords + turns) =
      (word turns).add (nextTerm keyWords (keyWords + turns) (constantAfter keyWords turns)
        (word (keyWords + turns - 1)))) (turns count : Nat) :
    extend keyWords (turns + count) keyWords 1 ((List.range keyWords).map word).reverse =
      extend keyWords count (keyWords + turns) (constantAfter keyWords turns)
        ((List.range (keyWords + turns)).map word).reverse := by
  -- One more turn is taken out of those that are left, and puts the next word in front.
  induction turns generalizing count with
  | zero => rw [Nat.zero_add]; rfl
  | succ turns inductionHypothesis =>
    have last := getD_latest word (Nat.lt_of_lt_of_le positive (Nat.le_add_right keyWords turns))
    have back : ((List.range (keyWords + turns)).map word).reverse.getD (keyWords - 1) Word.zero =
        word turns := by
      rw [getD_latest word (by omega)]
      congr 1
      omega
    rw [Nat.succ_add_eq_add_succ, inductionHypothesis, extend, last, back, Nat.sub_zero,
      ← recurrence turns, ← Nat.add_assoc, List.range_succ, List.map_append, List.reverse_append]
    rfl

end Loop

section Words

variable {keyWords : Nat} {key : Bytes}

/-- A word of the standard by number. -/
def standardWord (keyWords : Nat) (key : Bytes) (index : Nat) : Word :=
  .ofEntries (Standard.expandedWord keyWords key index)

/-- The words of the standard follow the recurrence of the loop. -/
theorem standardWord_later (positive : 0 < keyWords) (turns : Nat) :
    standardWord keyWords key (keyWords + turns) =
      (standardWord keyWords key turns).add
        (nextTerm keyWords (keyWords + turns) (constantAfter keyWords turns)
          (standardWord keyWords key (keyWords + turns - 1))) := by
  have late : ¬(keyWords + turns < keyWords ∨ keyWords = 0) := by omega
  rw [standardWord, Standard.expandedWord, dif_neg late, Nat.add_sub_cancel_left, Standard.temp,
    nextTerm, Nat.add_mod_left, substituteWord_eq, substituteWord_eq]
  -- Both sides choose by the same remainder; only at a multiple does the constant come in.
  by_cases multiple : turns % keyWords = 0
  · obtain ⟨number, rfl⟩ := Nat.dvd_of_mod_eq_zero multiple
    have quotient : (keyWords + keyWords * number) / keyWords = number + 1 := by
      rw [Nat.add_mul_div_left _ _ positive, Nat.div_self positive, Nat.add_comm]
    rw [constantAfter_multiple positive, if_pos multiple, if_pos multiple, quotient]
    rfl
  · rw [if_neg multiple, if_neg multiple]
    split <;> rfl

/-- A window of four bytes is read as a word. -/
theorem Word.read_window {start : Nat} (inside : start + 4 ≤ key.length) :
    Word.read (Bytes.window start 4 key) = .ofEntries fun row => key.getD (start + row) 0 := by
  have four : (Bytes.window start 4 key).length = 4 := by
    rw [Bytes.window, List.length_take, List.length_drop]
    omega
  have written := Word.toBytes_read (Nat.le_of_eq four.symm)
  rw [List.take_of_length_le (Nat.le_of_eq four)] at written
  have entry (row : Fin 4) : (Bytes.window start 4 key).getD row 0 = key.getD (start + row) 0 := by
    rw [List.getD_eq_getElem?_getD, List.getD_eq_getElem?_getD, Bytes.window,
      List.getElem?_take_of_lt row.isLt, List.getElem?_drop]
  calc Word.read (Bytes.window start 4 key)
      = .ofEntries fun row => (Word.read (Bytes.window start 4 key)).toBytes.getD row 0 := rfl
    _ = .ofEntries fun row => key.getD (start + row) 0 := by rw [written, funext entry]

/-- The words of a key are the first ones of the standard. -/
theorem keyToWords_eq (width : key.length = 4 * keyWords) :
    keyToWords keyWords key = (List.range keyWords).map (standardWord keyWords key) := by
  rw [keyToWords, Bytes.cut_eq_map, List.map_map]
  apply List.map_congr_left
  intro index member
  have early : index < keyWords := List.mem_range.mp member
  rw [Function.comp_apply, Word.read_window (by omega), Nat.mul_comm, standardWord,
    Standard.expandedWord, dif_pos (Or.inl early)]

end Words

section Keys

variable {variant : Variant} {key : Bytes}

/-- After any number of its turns, the loop of expansion holds the words of the standard so far
and the round constant that belongs to that number of turns. -/
theorem expandWords_after (width : key.length = variant.keyLength) {turns count : Nat}
    (total : variant.keyWords + (turns + count) = 4 * (variant.rounds + 1)) :
    expandWords variant key =
      extend variant.keyWords count (variant.keyWords + turns)
        (constantAfter variant.keyWords turns)
        ((List.range (variant.keyWords + turns)).map
          (standardWord variant.keyWords key)).reverse := by
  have turnsLeft : 4 * (variant.rounds + 1) - variant.keyWords = turns + count := by omega
  rw [expandWords, turnsLeft, keyToWords_eq width]
  exact extend_after variant.keyWords_pos (standardWord_later variant.keyWords_pos) turns count

/-- The words of an expanded key are those of the standard. -/
theorem expandWords_standard (width : key.length = variant.keyLength) :
    expandWords variant key =
      (List.range (4 * (variant.rounds + 1))).map (standardWord variant.keyWords key) := by
  obtain ⟨turns, total⟩ := Nat.exists_eq_add_of_le variant.keyWords_le
  have spent : variant.keyWords + (turns + 0) = 4 * (variant.rounds + 1) := total.symm
  rw [expandWords_after width spent, extend, List.reverse_reverse, total]

/-- The round keys of a schedule are those of the standard. -/
theorem state_roundKey (width : key.length = variant.keyLength) {round : Nat}
    (inside : round ≤ variant.rounds) :
    (roundKey variant key round).state = Standard.roundKey variant.keyWords key round := by
  funext row column
  have early : 4 * round + column < 4 * (variant.rounds + 1) := by omega
  have word : expandedWord variant key (4 * round + column) =
      standardWord variant.keyWords key (4 * round + column) := by
    rw [expandedWord, expandWords_standard width, List.getD_eq_getElem _ _ (by simpa using early),
      List.getElem_map, List.getElem_range]
  rw [roundKey, Block.state_ofWords, word, standardWord, Word.entries_ofEntries, Standard.roundKey]

/-- The first half of a context holds the expanded key of the standard. -/
theorem concat_roundKey (width : key.length = variant.keyLength) :
    Block.concat (roundKey variant key) (variant.rounds + 1) =
      Standard.keyExpansion variant.keyWords key := by
  rw [← encryptionKeys_eq, encryptionKeys, expandWords_standard width, List.flatMap_map]
  rfl

/-- And the second half the standard's round keys in the reverse order, all but the first and the
last of them mixed back. -/
theorem concat_inverseRoundKey (width : key.length = variant.keyLength) :
    Block.concat (inverseRoundKey variant key) (variant.rounds + 1) =
      Standard.inverseExpansion variant.keyWords key := by
  have same : ∀ round ∈ List.range (variant.rounds + 1),
      (inverseRoundKey variant key round).toBytes =
        let source := Standard.roundKey variant.keyWords key (variant.rounds - round)
        Standard.toBytes
          (if 0 < round ∧ round < variant.rounds then Standard.invMixColumns source
            else source) := by
    intro round member
    have inside : round ≤ variant.rounds := Nat.le_of_lt_succ (List.mem_range.mp member)
    have source := state_roundKey width (Nat.sub_le variant.rounds round)
    by_cases middle : 0 < round ∧ round < variant.rounds
    · have neither : ¬(round = 0 ∨ round = variant.rounds) := by omega
      simp only [inverseRoundKey, if_pos middle, if_neg neither, ← source,
        ← Block.state_unmixColumns, Block.toBytes_state]
    · have either : round = 0 ∨ round = variant.rounds := by omega
      simp only [inverseRoundKey, if_neg middle, if_pos either, ← source, Block.toBytes_state]
  rw [Block.concat, List.flatMap_congr same]
  rfl

end Keys

/-- Setting a key of the right length succeeds and writes the whole context, whatever stood there:
the expanded key of the standard, and as long again its round keys in the reverse order, those in
the middle mixed back. On the way, words are substituted byte by byte; after any number of turns
the loop holds the words of the standard so far; and the constant that it holds at each multiple
of the key's length is the standard's round constant.

Proof: a schedule is its round keys in both orders, block by block, and fills the context. The
words of the round keys are those that the loop leaves when no turns are left. -/
theorem setKey_expands (variant : Variant) {context key : Bytes}
    (size : context.length = variant.contextSize) (width : key.length = variant.keyLength) :
    setKey variant context key =
        ⟨.ok (), Standard.keyExpansion variant.keyWords key ++
          Standard.inverseExpansion variant.keyWords key⟩ ∧
      (Standard.keyExpansion variant.keyWords key).length = 16 * (variant.rounds + 1) ∧
      (Standard.inverseExpansion variant.keyWords key).length = 16 * (variant.rounds + 1) ∧
      (∀ word, substituteWord word = word.map Standard.subByte) ∧
      (∀ turns count, variant.keyWords + (turns + count) = 4 * (variant.rounds + 1) →
        expandWords variant key =
          extend variant.keyWords count (variant.keyWords + turns)
            (constantAfter variant.keyWords turns)
            ((List.range (variant.keyWords + turns)).map fun index =>
              Word.ofEntries (Standard.expandedWord variant.keyWords key index)).reverse) ∧
      ∀ number, constantAfter variant.keyWords (variant.keyWords * number) =
        Standard.rcon (number + 1) 0 := by
  have forward := concat_roundKey width
  have backward := concat_inverseRoundKey width
  refine ⟨?_, ?_, ?_, substituteWord_eq, ?_, constantAfter_multiple variant.keyWords_pos⟩
  · rw [setKey_eq size width, scheduleOf_eq, forward, backward]
  · rw [← forward, Block.length_concat]
  · rw [← backward, Block.length_concat]
  · intro turns count total
    exact expandWords_after width total

/-- A known key of four words over a context of zeros: the last word of its expansion, and the key
itself at the end of the context. -/
theorem setKey_expands_specimen :
    let key : Bytes := [0x2b, 0x7e, 0x15, 0x16, 0x28, 0xae, 0xd2, 0xa6,
      0xab, 0xf7, 0x15, 0x88, 0x09, 0xcf, 0x4f, 0x3c]
    setKey .aes128 (Bytes.zeros 352) key =
        ⟨.ok (), Standard.keyExpansion 4 key ++ Standard.inverseExpansion 4 key⟩ ∧
      Bytes.window 172 4 (setKey .aes128 (Bytes.zeros 352) key).context =
        [0xb6, 0x63, 0x0c, 0xa6] ∧
      Bytes.window 336 16 (setKey .aes128 (Bytes.zeros 352) key).context = key := by
  intro key
  have size : (Bytes.zeros 352).length = Variant.aes128.contextSize := Bytes.length_zeros 352
  have width : key.length = Variant.aes128.keyLength := rfl
  exact ⟨(setKey_expands .aes128 size width).1, by decide +kernel, by decide +kernel⟩

end CipherEngine.Aes
