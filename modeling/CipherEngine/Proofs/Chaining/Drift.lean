import CipherEngine.Proofs.Chaining.Stealing

/-!
# Drift under ciphertext stealing

Encryption with stealing leaves the last block of the textbook ciphertext as the
chaining value, decryption the block before it, which it has rebuilt. So two sides
that started together are apart after a message of more than one block, unless these
two blocks are one, and what is opened next has the difference of the two chaining
values in its first block. A message of one block brings the sides together again.
-/
namespace CipherEngine.BlockChaining

section Textbook

variable (functions : BlockFunctions) (context : Bytes) (size : Nat)

/-- The blocks of a message, the last one padded with zeros. -/
def paddedBlocks (message : Bytes) : List Bytes :=
  let count := Bytes.blockCount size message.length
  Bytes.cut size count (Bytes.fit (count * size) message)

/-- The last block of the textbook ciphertext, or the chaining value if there is no block. -/
def lastBlock (iv : Bytes) (blocks : List Bytes) : Bytes :=
  (Bulk.chain (Bulk.cbcEncryptStep functions context) iv blocks).1

/-- The chaining value that encryption leaves, whether it has stolen or not. -/
def valueAfter (iv message : Bytes) : Bytes :=
  lastBlock functions context iv (paddedBlocks size message)

/-- The chaining values of the encrypting and the decrypting side after a message. -/
def drift (ivs : Bytes × Bytes) (message : Bytes) : Bytes × Bytes :=
  (valueAfter functions context size ivs.1 message,
    if message = [] then ivs.2
    else if message.length ≤ size then valueAfter functions context size ivs.1 message
    else lastBlock functions context ivs.1 (paddedBlocks size message).dropLast)

/-- What the decrypting side opens of messages that were encrypted one after the other. -/
def openings : (ivs : Bytes × Bytes) → (messages : List Bytes) → List Bytes
  | _, [] => []
  | ivs, message :: rest =>
    Bytes.mask message (Bytes.mask ivs.1 ivs.2) ::
      openings (drift functions context size ivs message) rest

/-- The textbook ciphertext of the message ends in one block twice. -/
def Repeats (iv message : Bytes) : Prop :=
  valueAfter functions context size iv message =
    lastBlock functions context iv (paddedBlocks size message).dropLast

/-- Each message of more than one block, if the messages after it are as asked for, ends in
one block twice. -/
def Repeating (Followed : List Bytes → Prop) : (iv : Bytes) → (messages : List Bytes) → Prop
  | _, [] => True
  | iv, message :: rest =>
    (size < message.length → Followed rest → Repeats functions context size iv message) ∧
      Repeating Followed (valueAfter functions context size iv message) rest

end Textbook

variable {functions : BlockFunctions} {context : Bytes} {size : Nat}

/-- What is opened of one more message. -/
theorem openings_append (ivs : Bytes × Bytes) (messages : List Bytes) (message : Bytes) :
    openings functions context size ivs (messages ++ [message]) =
      openings functions context size ivs messages ++
        [let now := messages.foldl (drift functions context size) ivs
        Bytes.mask message (Bytes.mask now.1 now.2)] := by
  induction messages generalizing ivs with
  | nil => rfl
  | cons first rest inductionHypothesis =>
    simp only [List.cons_append, openings, inductionHypothesis, List.foldl_cons]

/-- The blocks of leading blocks and a tail. -/
theorem paddedBlocks_append {front tail : Bytes} {count : Nat} (width : front.length = count * size)
    (filled : 0 < tail.length) (short : tail.length ≤ size) :
    paddedBlocks size (front ++ tail) = Bytes.cut size count front ++ [Bytes.fit size tail] := by
  have counted : Bytes.blockCount size (front ++ tail).length = count + 1 := by
    rw [List.length_append, width, Bytes.blockCount_add filled short]
  have inside : (front ++ tail).length ≤ (count + 1) * size := by
    rw [List.length_append, width, Nat.succ_mul]
    exact Nat.add_le_add_left short _
  have missing : (count + 1) * size - (front ++ tail).length = size - tail.length := by
    rw [List.length_append, width, Nat.succ_mul, Nat.add_sub_add_left]
  have padded : Bytes.fit ((count + 1) * size) (front ++ tail) = front ++ Bytes.fit size tail := by
    rw [Bytes.fit_append inside, Bytes.fit_append short, missing, List.append_assoc]
  have last : (Bytes.fit size tail).take size = Bytes.fit size tail :=
    List.take_of_length_le (Nat.le_of_eq (Bytes.length_fit _ _))
  rw [paddedBlocks, counted, padded, Bytes.cut_add, Bytes.cut_append (Nat.le_of_eq width.symm),
    List.drop_left' width, Bytes.cut, Bytes.cut, last]

/-- Nothing has no blocks. -/
theorem paddedBlocks_nil : paddedBlocks size [] = [] := by
  rw [paddedBlocks, List.length_nil, Bytes.blockCount, Nat.zero_div, Nat.zero_mod, if_pos rfl]
  rfl

/-- The last block after one more. -/
theorem lastBlock_append (iv : Bytes) (blocks : List Bytes) (block : Bytes) :
    lastBlock functions context iv (blocks ++ [block]) =
      functions.encrypt context (Bytes.mask block (lastBlock functions context iv blocks)) := by
  rw [lastBlock, Bulk.chain_append]
  rfl

/-- The last block of whole blocks is what a run over them leaves. -/
theorem lastBlock_cut (positive : 0 < size) (iv : Bytes) {buffer : Bytes} {count : Nat}
    (width : buffer.length = count * size) :
    lastBlock functions context iv (Bytes.cut size count buffer) =
      (Bulk.runBlocks size (Bulk.cbcEncryptStep functions context) iv buffer).1 := by
  rw [lastBlock, Bulk.runBlocks_whole _ iv positive width]

/-- Whole blocks leave what a run over them leaves. -/
theorem valueAfter_whole (positive : 0 < size) (iv : Bytes) {message : Bytes} {count : Nat}
    (width : message.length = count * size) :
    valueAfter functions context size iv message =
      (Bulk.runBlocks size (Bulk.cbcEncryptStep functions context) iv message).1 := by
  have counted : Bytes.blockCount size message.length = count := by
    rw [Bytes.blockCount, width, Nat.mul_div_cancel _ positive, Nat.mul_mod_left, if_pos rfl,
      Nat.add_zero]
  rw [valueAfter, paddedBlocks, counted, Bytes.fit_whole width, lastBlock_cut positive iv width]

variable (functions context) in
/-- Of leading blocks, a block and a tail, the last two blocks of the textbook ciphertext. -/
theorem lastBlocks_append (positive : 0 < size) (iv : Bytes) {body block tail : Bytes}
    {before : Nat} (bodyWidth : body.length = before * size) (blockWidth : block.length = size)
    (filled : 0 < tail.length) (short : tail.length ≤ size) :
    let passed := Bulk.runBlocks size (Bulk.cbcEncryptStep functions context) iv body
    let last := functions.encrypt context (Bytes.mask block passed.1)
    valueAfter functions context size iv (body ++ (block ++ tail)) =
        functions.encrypt context (Bytes.mask (Bytes.fit size tail) last) ∧
      lastBlock functions context iv (paddedBlocks size (body ++ (block ++ tail))).dropLast =
        last := by
  intro passed last
  have total : (body ++ block).length = (before + 1) * size := by
    rw [List.length_append, bodyWidth, blockWidth, Nat.succ_mul]
  have ended : lastBlock functions context iv (Bytes.cut size (before + 1) (body ++ block)) =
      last := by
    have single : Bytes.cut size 1 block = [block] := by
      rw [Bytes.cut, Bytes.cut, List.take_of_length_le (Nat.le_of_eq blockWidth)]
    rw [Bytes.cut_add, Bytes.cut_append (Nat.le_of_eq bodyWidth.symm), List.drop_left' bodyWidth,
      single, lastBlock_append, lastBlock_cut positive iv bodyWidth]
  rw [← List.append_assoc, valueAfter, paddedBlocks_append total filled short, lastBlock_append,
    List.dropLast_concat, ended]
  exact ⟨rfl, rfl⟩

/-- Nothing leaves the chaining values where they are. -/
@[simp] theorem drift_nil (ivs : Bytes × Bytes) : drift functions context size ivs [] = ivs := by
  rw [drift, if_pos rfl, valueAfter, paddedBlocks_nil]
  rfl

/-- After a message of one block the sides are together. -/
theorem drift_block (ivs : Bytes × Bytes) {message : Bytes} (filled : message ≠ [])
    (short : message.length ≤ size) :
    drift functions context size ivs message =
      (valueAfter functions context size ivs.1 message,
        valueAfter functions context size ivs.1 message) := by
  rw [drift, if_neg filled, if_pos short]

/-- After a message of more blocks the decrypting side is one block behind. -/
theorem drift_several (ivs : Bytes × Bytes) {message : Bytes} (long : size < message.length) :
    drift functions context size ivs message =
      (valueAfter functions context size ivs.1 message,
        lastBlock functions context ivs.1 (paddedBlocks size message).dropLast) := by
  have filled : message ≠ [] := List.ne_nil_of_length_pos (Nat.zero_lt_of_lt long)
  rw [drift, if_neg filled, if_neg (Nat.not_le_of_lt long)]

/-- Blocks that are decrypted from another chaining value come back but for the first, which
is masked with the difference. The last ciphertext block is left, as by encryption. -/
theorem chain_drift (invertible : functions.InvertibleUnder context size)
    (sized : Bulk.Sized size (Bulk.cbcEncryptStep functions context)) {iv : Bytes}
    (width : iv.length = size) {other : Bytes} (otherWidth : other.length = size) {block : Bytes}
    {rest : List Bytes} (whole : ∀ each ∈ block :: rest, each.length = size) :
    Bulk.chain (Bulk.cbcDecryptStep functions context) other
        (Bulk.chain (Bulk.cbcEncryptStep functions context) iv (block :: rest)).2 =
      ((Bulk.chain (Bulk.cbcEncryptStep functions context) iv (block :: rest)).1,
        Bytes.mask block (Bytes.mask iv other) :: rest) := by
  have blockWidth : block.length = size := whole block List.mem_cons_self
  have masked : (Bytes.mask block iv).length = size := (Bytes.length_mask block iv).trans blockWidth
  have opened : Bytes.mask (Bytes.mask block iv) other = Bytes.mask block (Bytes.mask iv other) :=
    Bytes.mask_mask_of_length (width.trans otherWidth.symm) block
  -- From the second block on both sides hold the ciphertext block before.
  have later := Bulk.chain_undoes (step_undoes invertible) sized
    (sized iv block width blockWidth).1 fun each member =>
      whole each (List.mem_cons_of_mem block member)
  simp only [Bulk.cbcEncryptStep] at later
  simp only [Bulk.chain, Bulk.cbcEncryptStep, Bulk.cbcDecryptStep, later,
    invertible (Bytes.mask block iv) masked, opened]

/-- Whole blocks that are decrypted from another chaining value come back masked with the
difference. -/
theorem runBlocks_drift (invertible : functions.InvertibleUnder context size)
    (sized : Bulk.Sized size (Bulk.cbcEncryptStep functions context)) (positive : 0 < size)
    {iv : Bytes} (width : iv.length = size) {other : Bytes} (otherWidth : other.length = size)
    {buffer : Bytes} {count : Nat} (total : buffer.length = (count + 1) * size) :
    let passed := Bulk.runBlocks size (Bulk.cbcEncryptStep functions context) iv buffer
    Bulk.runBlocks size (Bulk.cbcDecryptStep functions context) other passed.2 =
      (passed.1, Bytes.mask buffer (Bytes.mask iv other)) := by
  intro passed
  have whole : ∀ block ∈ Bytes.cut size (count + 1) buffer, block.length = size :=
    fun block member => Bytes.length_of_mem_cut (Nat.le_of_eq total.symm) member
  have drifted := chain_drift invertible sized width otherWidth whole
  have firstWidth : (buffer.take size).length = size := whole _ List.mem_cons_self
  have reached : (Bytes.mask iv other).length ≤ (buffer.take size).length :=
    Nat.le_of_eq ((Bytes.length_mask iv other).trans (width.trans firstWidth.symm))
  have otherBlocks : (buffer.drop size).length = count * size := by
    rw [List.length_drop, total, Nat.succ_mul, Nat.add_sub_cancel]
  have others : (Bytes.cut size count (buffer.drop size)).flatten = buffer.drop size := by
    rw [Bytes.flatten_cut, ← otherBlocks, List.take_length]
  have left := Bulk.runBlocks_whole (Bulk.cbcEncryptStep functions context) iv positive total
  simp only [passed]
  rw [Bulk.runBlocks_after _ sized positive width other total, left, Bytes.cut, drifted,
    List.flatten_cons, others, ← Bytes.mask_append_of_le reached, List.take_append_drop]

/-- Leading blocks and one more, decrypted one after the other from another chaining value. -/
theorem blocks_drift (invertible : functions.InvertibleUnder context size)
    (sized : Bulk.Sized size (Bulk.cbcEncryptStep functions context)) (positive : 0 < size)
    {iv : Bytes} (width : iv.length = size) {other : Bytes} (otherWidth : other.length = size)
    {body block : Bytes} {before : Nat} (bodyWidth : body.length = before * size)
    (blockWidth : block.length = size) :
    let passed := Bulk.runBlocks size (Bulk.cbcEncryptStep functions context) iv body
    let last := functions.encrypt context (Bytes.mask block passed.1)
    let opened := Bulk.runBlocks size (Bulk.cbcDecryptStep functions context) other passed.2
    opened.2 ++ Bytes.mask (functions.decrypt context last) opened.1 =
      Bytes.mask (body ++ block) (Bytes.mask iv other) := by
  intro passed last opened
  have bodyAligned : size ∣ body.length := bodyWidth ▸ Nat.dvd_mul_left size before
  have blockAligned : size ∣ block.length := blockWidth ▸ Nat.dvd_refl size
  have total : (body ++ block).length = (before + 1) * size := by
    rw [List.length_append, bodyWidth, blockWidth, Nat.succ_mul]
  obtain ⟨passedWidth, outputWidth⟩ := Bulk.runBlocks_sized sized positive width bodyAligned
  have lastWidth : last.length = size := (sized passed.1 block passedWidth blockWidth).2
  have outputAligned : size ∣ passed.2.length := outputWidth.symm ▸ bodyAligned
  have lastAligned : size ∣ last.length := lastWidth ▸ Nat.dvd_refl size
  -- On either side, the leading blocks and the block after them are one run.
  have encrypted : Bulk.runBlocks size (Bulk.cbcEncryptStep functions context) iv (body ++ block) =
      (last, passed.2 ++ last) := by
    rw [Bulk.runBlocks_append _ positive _ bodyAligned blockAligned,
      Bulk.runBlocks_block _ positive _ blockWidth]
    rfl
  have decrypted : Bulk.runBlocks size (Bulk.cbcDecryptStep functions context) other
      (passed.2 ++ last) =
        (last, opened.2 ++ Bytes.mask (functions.decrypt context last) opened.1) := by
    rw [Bulk.runBlocks_append _ positive _ outputAligned lastAligned,
      Bulk.runBlocks_block _ positive _ lastWidth]
    rfl
  have drifted := runBlocks_drift invertible sized positive width otherWidth total
  simp only [encrypted, decrypted] at drifted
  exact congrArg Prod.snd drifted

/-- The swapped block holds, behind the tail, what the tail did not take of the block that
was there, and gives the tail back. -/
theorem mask_fit_returns {tail last : Bytes} (width : last.length = size)
    (short : tail.length ≤ size) :
    let padded := Bytes.mask (Bytes.fit size tail) last
    last.take tail.length ++ padded.drop (last.take tail.length).length = last ∧
      Bytes.mask (padded.take (last.take tail.length).length) (last.take tail.length) = tail := by
  intro padded
  have taken : (last.take tail.length).length = tail.length := by
    rw [List.length_take, width, Nat.min_eq_left short]
  have split : padded = Bytes.mask tail last ++ last.drop tail.length := mask_fit width short
  have front : (Bytes.mask tail last).length = tail.length := Bytes.length_mask tail last
  rw [taken, split, List.drop_left' front, List.take_left' front]
  constructor
  · exact List.take_append_drop tail.length last
  · have used := Bytes.mask_take (Bytes.mask tail last) last
    rw [front, Bytes.mask_mask] at used
    exact used

/-- A message that may be chained is empty, one block or longer. -/
theorem lengths_of_aligned {message : Bytes}
    (aligned : message.length ≤ size → size ∣ message.length) :
    message = [] ∨ message.length = size ∨ size < message.length := by
  rcases Nat.lt_trichotomy message.length size with less | equal | more
  · left
    exact List.eq_nil_of_length_eq_zero
      (Nat.eq_zero_of_dvd_of_lt (aligned (Nat.le_of_lt less)) less)
  · exact Or.inr (Or.inl equal)
  · exact Or.inr (Or.inr more)

/-- Both sides keep chaining values of one block. -/
theorem drift_sized (sized : Bulk.Sized size (Bulk.cbcEncryptStep functions context))
    (ivs : Bytes × Bytes) (width : ivs.1.length = size) (otherWidth : ivs.2.length = size)
    (message : Bytes) :
    (drift functions context size ivs message).1.length = size ∧
      (drift functions context size ivs message).2.length = size := by
  have whole : ∀ block ∈ paddedBlocks size message, block.length = size :=
    fun block member => Bytes.length_of_mem_cut (Nat.le_of_eq (Bytes.length_fit _ _).symm) member
  have value : (valueAfter functions context size ivs.1 message).length = size :=
    (Bulk.chain_sized sized width whole).1
  have before := (Bulk.chain_sized sized width fun block member =>
    whole block (List.dropLast_subset _ member)).1
  refine ⟨value, ?_⟩
  rw [drift]
  split
  · exact otherWidth
  · split
    · exact value
    · exact before

/-- What is opened is what was encrypted, exactly if the sides are together, as soon as there
are bytes, and every longer message that bytes come after ends in one block twice. -/
theorem openings_eq_self_iff (positive : 0 < size)
    (sized : Bulk.Sized size (Bulk.cbcEncryptStep functions context)) {messages : List Bytes}
    (aligned : ∀ message ∈ messages, message.length ≤ size → size ∣ message.length)
    {iv other : Bytes} (width : iv.length = size) (otherWidth : other.length = size) :
    openings functions context size (iv, other) messages = messages ↔
      ((∃ message ∈ messages, message ≠ []) → iv = other) ∧
        Repeating functions context size (fun rest => ∃ later ∈ rest, later ≠ []) iv messages := by
  induction messages generalizing iv other with
  | nil => simp [openings, Repeating]
  | cons message rest inductionHypothesis =>
    have restAligned : ∀ each ∈ rest, each.length ≤ size → size ∣ each.length :=
      fun each member => aligned each (List.mem_cons_of_mem message member)
    obtain ⟨nextWidth, otherNextWidth⟩ := drift_sized sized (iv, other) width otherWidth message
    have later := inductionHypothesis restAligned nextWidth otherNextWidth
    have same := width.trans otherWidth.symm
    have opened (reached : size ≤ message.length) :
        Bytes.mask message (Bytes.mask iv other) = message ↔ iv = other :=
      Bytes.mask_eq_self_iff same (width.symm ▸ reached)
    simp only [openings, List.cons.injEq, later]
    rcases lengths_of_aligned (aligned message List.mem_cons_self) with rfl | block | long
    · simp [Repeating, valueAfter, paddedBlocks_nil, lastBlock, Bulk.chain]
    · have filled : message ≠ [] := List.ne_nil_of_length_pos (block.symm ▸ positive)
      simp [opened (Nat.le_of_eq block.symm), drift_block (iv, other) filled (Nat.le_of_eq block),
        Repeating, filled, block]
    · have filled : message ≠ [] := List.ne_nil_of_length_pos (Nat.zero_lt_of_lt long)
      simp [opened (Nat.le_of_lt long), drift_several (iv, other) long, Repeating, filled, long,
        Repeats]

variable (functions context) in
/-- The sides end together, exactly if they were together, unless there are bytes, and the
last message with bytes ends in one block twice, if it is a longer one. -/
theorem drifts_together_iff (positive : 0 < size) {messages : List Bytes}
    (aligned : ∀ message ∈ messages, message.length ≤ size → size ∣ message.length)
    (iv other : Bytes) :
    let ivs := messages.foldl (drift functions context size) (iv, other)
    ivs.1 = ivs.2 ↔
      ((∀ message ∈ messages, message = []) → iv = other) ∧
        Repeating functions context size (fun rest => ∀ later ∈ rest, later = []) iv messages := by
  induction messages generalizing iv other with
  | nil => simp [Repeating]
  | cons message rest inductionHypothesis =>
    have restAligned : ∀ each ∈ rest, each.length ≤ size → size ∣ each.length :=
      fun each member => aligned each (List.mem_cons_of_mem message member)
    have later := inductionHypothesis restAligned
    simp only [List.foldl_cons]
    rcases lengths_of_aligned (aligned message List.mem_cons_self) with
      rfl | block | long
    · simp [later, Repeating, valueAfter, paddedBlocks_nil, lastBlock, Bulk.chain]
    · have filled : message ≠ [] := List.ne_nil_of_length_pos (block.symm ▸ positive)
      simp [drift_block (iv, other) filled (Nat.le_of_eq block), later, Repeating, filled, block]
    · have filled : message ≠ [] := List.ne_nil_of_length_pos (Nat.zero_lt_of_lt long)
      simp [drift_several (iv, other) long, later, Repeating, filled, long, Repeats]

variable {m : Type → Type} [Monad m] [LawfulMonad m] {cipher : KeyedCipher m}

/-- The two sides go through the message, from their chaining values to these: the one
encrypts it, and the other opens it masked with the difference. -/
def Drifts (cipher : KeyedCipher m) (size : Nat) (chain other : Chain) (message : Bytes)
    (ivs : Bytes × Bytes) : Prop :=
  ∃ previous output, ivs.1.length = size ∧ ivs.2.length = size ∧ previous.length = size ∧
    output.length = message.length ∧
    Gives (encrypt cipher true chain message) ({ chain with iv := ivs.1 }, output) ∧
    Gives (decrypt cipher true other output)
      ({ other with iv := ivs.2, previous },
        Bytes.mask message (Bytes.mask chain.iv other.iv))

/-- Nothing is stolen from, and changes nothing. -/
theorem drifts_nil (computes : cipher.Computes functions size) {chain other : Chain}
    (fits : chain.Fits size) (otherFits : other.Fits size) :
    Drifts cipher size chain other [] (chain.iv, other.iv) := by
  have positive := fits.positive
  have empty (step : (iv block : Bytes) → Bytes × Bytes) (iv : Bytes) :
      Bulk.runBlocks size step iv [] = (iv, []) := by
    have none : ([] : Bytes).length = 0 * size := (Nat.zero_mul size).symm
    rw [Bulk.runBlocks_whole step iv positive none]
    rfl
  have keeps : steals true ([] : Bytes).length size = false := rfl
  have aligned : size ∣ ([] : Bytes).length := Nat.dvd_zero size
  have encrypted := encrypt_gives computes positive fits.iv keeps aligned
  obtain ⟨previous, width, decrypted⟩ := decrypt_gives computes otherFits keeps aligned
  rw [empty] at encrypted decrypted
  rw [Drifts, Bytes.nil_mask]
  exact ⟨previous, [], fits.iv, otherFits.iv, width, rfl, encrypted, decrypted⟩

/-- A message of one block is not stolen from, and brings the sides together. -/
theorem drifts_block (computes : cipher.Computes functions size)
    (invertible : functions.InvertibleUnder cipher.context size) {chain other : Chain}
    (fits : chain.Fits size) (otherFits : other.Fits size) {message : Bytes}
    (width : message.length = size) :
    let iv := valueAfter functions cipher.context size chain.iv message
    Drifts cipher size chain other message (iv, iv) := by
  intro iv
  have positive := fits.positive
  have sized := encryptStep_sized computes
  have total : message.length = (0 + 1) * size := by rw [width, Nat.zero_add, Nat.one_mul]
  have aligned : size ∣ message.length := width ▸ Nat.dvd_refl size
  have keeps : steals true message.length size = false := by
    rw [steals, width, Bool.true_and, decide_eq_false_iff_not]
    exact Nat.lt_irrefl size
  let passed :=
    Bulk.runBlocks size (Bulk.cbcEncryptStep functions cipher.context) chain.iv message
  obtain ⟨ivWidth, outputWidth⟩ := Bulk.runBlocks_sized sized positive fits.iv aligned
  have same : iv = passed.1 := valueAfter_whole positive chain.iv total
  have encrypted := encrypt_gives computes positive fits.iv keeps aligned
  obtain ⟨previous, previousWidth, decrypted⟩ :=
    decrypt_gives computes otherFits (outputWidth.symm ▸ keeps) (outputWidth.symm ▸ aligned)
  rw [runBlocks_drift invertible sized positive fits.iv otherFits.iv total] at decrypted
  rw [same]
  exact ⟨previous, passed.2, ivWidth, ivWidth, previousWidth, outputWidth, encrypted, decrypted⟩

/-- What encryption with stealing has put out, decrypted from another chaining value. -/
theorem decrypt_stolen_gives (computes : cipher.Computes functions size)
    (invertible : functions.InvertibleUnder cipher.context size) {iv : Bytes}
    (width : iv.length = size) {other : Chain} (fits : other.Fits size)
    {body block tail : Bytes} {before : Nat} (bodyWidth : body.length = before * size)
    (blockWidth : block.length = size) (filled : 0 < tail.length)
    (short : tail.length ≤ size) :
    let passed := Bulk.runBlocks size (Bulk.cbcEncryptStep functions cipher.context) iv body
    let last := functions.encrypt cipher.context (Bytes.mask block passed.1)
    let swapped := functions.encrypt cipher.context (Bytes.mask (Bytes.fit size tail) last)
    ∃ previous, previous.length = size ∧
      Gives (decrypt cipher true other (passed.2 ++ (swapped ++ last.take tail.length)))
        ({ other with iv := last, previous },
          Bytes.mask (body ++ (block ++ tail)) (Bytes.mask iv other.iv)) := by
  intro passed last swapped
  let padded := Bytes.mask (Bytes.fit size tail) last
  let opened := Bulk.runBlocks size (Bulk.cbcDecryptStep functions cipher.context) other.iv passed.2
  have positive := fits.positive
  obtain ⟨outputWidth, lastWidth, swappedWidth⟩ :
      passed.2.length = body.length ∧ last.length = size ∧ swapped.length = size :=
    length_stealing computes positive width bodyWidth blockWidth tail
  have outputAligned : size ∣ passed.2.length :=
    (outputWidth.trans bodyWidth) ▸ Nat.dvd_mul_left size before
  have openedWidth : opened.1.length = size :=
    (Bulk.runBlocks_sized (decryptStep_sized computes) positive fits.iv outputAligned).1
  have paddedWidth : padded.length = size :=
    (Bytes.length_mask _ _).trans (Bytes.length_fit size tail)
  have stolenWidth : (last.take tail.length).length = tail.length := by
    rw [List.length_take, lastWidth, Nat.min_eq_left short]
  have decrypted := decrypt_stealing_gives computes fits (outputWidth.trans bodyWidth)
    swappedWidth (stolenWidth.symm ▸ filled) (stolenWidth.symm ▸ short)
  -- The swapped block opens to the padded tail, masked with the block that was swapped out.
  have unswapped : functions.decrypt cipher.context swapped = padded :=
    invertible padded paddedWidth
  have rebuilt : last.take tail.length ++ padded.drop (last.take tail.length).length = last :=
    (mask_fit_returns lastWidth short).1
  have returned : Bytes.mask (padded.take (last.take tail.length).length)
      (last.take tail.length) = tail := (mask_fit_returns lastWidth short).2
  simp only [unswapped, rebuilt, returned] at decrypted
  have front := blocks_drift invertible (encryptStep_sized computes) positive width fits.iv
    bodyWidth blockWidth
  have reached : (Bytes.mask iv other.iv).length ≤ (body ++ block).length := by
    rw [Bytes.length_mask, width, List.length_append, blockWidth]
    exact Nat.le_add_left size body.length
  have message : Bytes.mask (body ++ (block ++ tail)) (Bytes.mask iv other.iv) =
      opened.2 ++ (Bytes.mask (functions.decrypt cipher.context last) opened.1 ++ tail) := by
    rw [← List.append_assoc, Bytes.mask_append_of_le reached, ← front, List.append_assoc]
  rw [message]
  exact ⟨opened.1, openedWidth, decrypted⟩

/-- A longer message is stolen from, and leaves the decrypting side one block behind. -/
theorem drifts_several (computes : cipher.Computes functions size)
    (invertible : functions.InvertibleUnder cipher.context size) {chain other : Chain}
    (fits : chain.Fits size) (otherFits : other.Fits size) {message : Bytes}
    (long : size < message.length) :
    Drifts cipher size chain other message
      (valueAfter functions cipher.context size chain.iv message,
        lastBlock functions cipher.context chain.iv (paddedBlocks size message).dropLast) := by
  have positive := fits.positive
  obtain ⟨before, body, block, tail, rfl, bodyWidth, blockWidth, filled, short⟩ :=
    eq_append_of_long positive long
  obtain ⟨outputWidth, lastWidth, swappedWidth⟩ :=
    length_stealing computes positive fits.iv bodyWidth blockWidth tail
  have encrypted := encrypt_stealing_gives computes fits.iv bodyWidth blockWidth filled short
  obtain ⟨previous, previousWidth, decrypted⟩ := decrypt_stolen_gives computes invertible fits.iv
    otherFits bodyWidth blockWidth filled short
  obtain ⟨value, valueBefore⟩ := lastBlocks_append functions cipher.context positive chain.iv
    bodyWidth blockWidth filled short
  rw [value, valueBefore]
  refine ⟨previous, _, swappedWidth, lastWidth, previousWidth, ?_, encrypted, decrypted⟩
  rw [List.length_append, List.length_append, List.length_append, List.length_append,
    List.length_take, outputWidth, swappedWidth, lastWidth, blockWidth, Nat.min_eq_left short]

/-- The two sides go through every message that may be chained. -/
theorem message_drifts (computes : cipher.Computes functions size)
    (invertible : functions.InvertibleUnder cipher.context size) {chain other : Chain}
    (fits : chain.Fits size) (otherFits : other.Fits size) {message : Bytes}
    (aligned : message.length ≤ size → size ∣ message.length) :
    Drifts cipher size chain other message
      (drift functions cipher.context size (chain.iv, other.iv) message) := by
  have positive := fits.positive
  rcases lengths_of_aligned aligned with rfl | block | long
  · rw [drift_nil]
    exact drifts_nil computes fits otherFits
  · have filled : message ≠ [] := List.ne_nil_of_length_pos (block.symm ▸ positive)
    rw [drift_block _ filled (Nat.le_of_eq block)]
    exact drifts_block computes invertible fits otherFits block
  · rw [drift_several _ long]
    exact drifts_several computes invertible fits otherFits long

end CipherEngine.BlockChaining
