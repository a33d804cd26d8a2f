import CipherEngine.Proofs.Chaining.Textbook
import CipherEngine.Proofs.Handle.Paired
import CipherEngine.Proofs.Handle.Representation
import CipherEngine.Proofs.Specimen

/-!
# Block chaining over whole runs

A handle that chains blocks without stealing takes a message in calls of whole blocks. What
its calls put out, joined, is what the textbook makes of what they were given, joined, from
the chaining value at the start; and between two calls the chaining value is the last
ciphertext block. This holds in either direction.

With MAC output a call to encrypt puts out one block at most. It is the last ciphertext block
that the textbook gives for all that has been encrypted up to then, although that ciphertext
is never made, and it is all that the call changes of the handle.
-/
namespace CipherEngine

variable {m : Type → Type}

/-- The request asks for a message to be transformed in this direction. -/
def Request.Transforms (direction : Direction) (request : Request) : Prop :=
  ∃ call, request.call? = some call ∧ call.direction = direction

/-- The exchanges among the requests and what came of them, in order, as `exchanges` has them of
the two apart. -/
def exchanged (past : List (Request × Outcome m)) : List Exchange :=
  past.filterMap fun entry => entry.1.exchange? entry.2

/-- A request at the end of a past adds its exchange, if it made one. -/
theorem exchanged_concat (past : List (Request × Outcome m)) (request : Request)
    (outcome : Outcome m) :
    exchanged (past ++ [(request, outcome)]) =
      exchanged past ++ (request.exchange? outcome).toList := by
  rw [exchanged, List.filterMap_append]
  cases exchange : request.exchange? outcome <;> simp [exchanged, exchange]

/-- What stands at a place of a list with one more entry: an entry of the list, with the same
before it, or that entry, with the whole list before it. -/
theorem getElem?_concat_cases {α : Type} {past : List α} {entry found : α} {index : Nat}
    (at_ : (past ++ [entry])[index]? = some found) :
    past[index]? = some found ∧ (past ++ [entry]).take (index + 1) = past.take (index + 1) ∨
      found = entry ∧ (past ++ [entry]).take (index + 1) = past ++ [entry] := by
  by_cases before : index < past.length
  · rw [List.getElem?_append_left before] at at_
    exact .inl ⟨at_, List.take_append_of_le_length before⟩
  · have inside := (List.getElem?_eq_some_iff.mp at_).1
    rw [List.length_append, List.length_singleton] at inside
    obtain rfl : index = past.length := by omega
    rw [List.getElem?_concat_length] at at_
    exact .inr ⟨(Option.some.inj at_).symm, List.take_of_length_le (by simp)⟩

namespace BlockChaining

/-- The step over a block in a direction. -/
def step (functions : BlockFunctions) (context : Bytes) :
    Direction → (iv block : Bytes) → Bytes × Bytes
  | .encrypt => Bulk.cbcEncryptStep functions context
  | .decrypt => Bulk.cbcDecryptStep functions context

/-- In both directions blocks are taken to blocks. -/
theorem step_sized [Functor m] {cipher : KeyedCipher m} {functions : BlockFunctions} {size : Nat}
    (computes : cipher.Computes functions size) (direction : Direction) :
    Bulk.Sized size (step functions cipher.context direction) := by
  cases direction with
  | encrypt => exact encryptStep_sized computes
  | decrypt => exact decryptStep_sized computes

/-- The run over the blocks of what went in, in a direction, takes the plaintext to the
ciphertext or back, and is left with a value. -/
def Connects (functions : BlockFunctions) (context : Bytes) (size : Nat) (direction : Direction)
    (iv plaintext ciphertext last : Bytes) : Prop :=
  ∃ input output, size ∣ input.length ∧
    Bulk.runBlocks size (step functions context direction) iv input = (last, output) ∧
      plaintext = direction.plaintext input output ∧
        ciphertext = direction.ciphertext input output

section Connects

variable {functions : BlockFunctions} {context : Bytes} {size : Nat} {direction : Direction}
  {iv plaintext ciphertext last : Bytes}

/-- No message connects a chaining value with itself. -/
theorem Connects.nil (positive : 0 < size) (iv : Bytes) :
    Connects functions context size direction iv [] [] iv := by
  have none : ([] : Bytes).length = 0 * size := (Nat.zero_mul size).symm
  refine ⟨[], [], Nat.dvd_zero size, Bulk.runBlocks_whole _ iv positive none, ?_, ?_⟩
  · cases direction <;> rfl
  · cases direction <;> rfl

/-- A message that goes on from where another one has ended is joined to it. -/
theorem Connects.append (connects : Connects functions context size direction iv plaintext
      ciphertext last) (positive : 0 < size) {input output next : Bytes}
    (aligned : size ∣ input.length)
    (passed : Bulk.runBlocks size (step functions context direction) last input =
      (next, output)) :
    Connects functions context size direction iv (plaintext ++ direction.plaintext input output)
      (ciphertext ++ direction.ciphertext input output) next := by
  obtain ⟨before, after, whole, run, rfl, rfl⟩ := connects
  refine ⟨before ++ input, after ++ output, ?_, ?_, ?_, ?_⟩
  · rw [List.length_append]
    exact Nat.dvd_add whole aligned
  · rw [Bulk.runBlocks_append _ positive iv whole aligned, run, passed]
  · cases direction <;> rfl
  · cases direction <;> rfl

/-- What was encrypted is the textbook ciphertext, whose last block is left. -/
theorem Connects.encryption
    (connects : Connects functions context size .encrypt iv plaintext ciphertext last)
    (positive : 0 < size)
    (widths : ∀ block, block.length = size → (functions.encrypt context block).length = size)
    (width : iv.length = size) :
    size ∣ plaintext.length ∧
      ciphertext = Textbook.encryption functions context size iv plaintext ∧
        last = Bytes.ending size (iv ++ ciphertext) := by
  obtain ⟨input, output, aligned, run, rfl, rfl⟩ := connects
  obtain ⟨rfl, rfl⟩ := Prod.mk.inj
    (run.symm.trans (Textbook.runBlocks_encrypt positive widths width aligned))
  exact ⟨aligned, rfl, rfl⟩

/-- What was decrypted is the textbook plaintext, and the last block of the ciphertext is left. -/
theorem Connects.decryption
    (connects : Connects functions context size .decrypt iv plaintext ciphertext last)
    (positive : 0 < size) (width : iv.length = size) :
    size ∣ ciphertext.length ∧
      plaintext = Textbook.decryption functions context size iv ciphertext ∧
        last = Bytes.ending size (iv ++ ciphertext) := by
  obtain ⟨input, output, aligned, run, rfl, rfl⟩ := connects
  obtain ⟨rfl, rfl⟩ := Prod.mk.inj
    (run.symm.trans (Textbook.runBlocks_decrypt positive width aligned))
  exact ⟨aligned, rfl, rfl⟩

end Connects

/-- In both directions whole blocks are transformed by the run over them. -/
theorem run_gives [Monad m] [LawfulMonad m] {cipher : KeyedCipher m} {functions : BlockFunctions}
    {size : Nat} (computes : cipher.Computes functions size) {chain : Chain}
    (fits : chain.Fits size) {buffer : Bytes} (aligned : size ∣ buffer.length)
    (direction : Direction) :
    let passed := Bulk.runBlocks size (step functions cipher.context direction) chain.iv buffer
    ∃ previous, previous.length = size ∧
      Gives (match direction with
        | .encrypt => encrypt cipher false chain buffer
        | .decrypt => decrypt cipher false chain buffer)
        ({ chain with iv := passed.1, previous }, passed.2) := by
  have keeps : steals false buffer.length size = false := rfl
  cases direction with
  | encrypt =>
    exact ⟨chain.previous, fits.previous,
      encrypt_gives computes fits.positive fits.iv keeps aligned⟩
  | decrypt => exact decrypt_gives computes fits keeps aligned

/-- A MAC of whole blocks leaves the last ciphertext block, and says whether there is a block. -/
theorem mac_whole_gives [Monad m] [LawfulMonad m] {cipher : KeyedCipher m}
    {functions : BlockFunctions} {size : Nat} (computes : cipher.Computes functions size)
    {chain : Chain} (fits : chain.Fits size) {buffer : Bytes} (aligned : size ∣ buffer.length) :
    Gives (mac cipher chain buffer)
      ({ chain with iv := Textbook.last functions cipher.context size chain.iv buffer },
        !buffer.isEmpty) := by
  have total := Nat.div_mul_cancel aligned
  have folded : (Bytes.cut size (buffer.length / size) buffer).foldl
      (Bulk.cbcMacStep functions cipher.context) chain.iv =
        Textbook.last functions cipher.context size chain.iv buffer := by
    rw [Textbook.foldl_mac computes.lengthEncrypt fits.iv (Nat.le_of_eq total),
      Textbook.sealedBlock_eq_last computes.lengthEncrypt fits.iv]
  have given := mac_gives computes fits buffer
  simp only [total, folded] at given
  cases buffer with
  | nil =>
    rw [Textbook.last_nil fits.iv]
    exact given
  | cons byte rest => exact given

end BlockChaining

namespace LiveHandle

/-- The handle with another chaining value, and all else as it is. -/
def withIv (handle : LiveHandle m) (iv : Bytes) : LiveHandle m :=
  { handle with arena := handle.arena.put .iv 0 iv }

/-- A new chaining value is a continuation: shape, key and context are as before. -/
theorem withIv_continues (handle : LiveHandle m) (iv : Bytes) :
    handle.Continues (handle.withIv iv) :=
  ⟨⟨rfl, rfl, rfl⟩, rfl, rfl, Arena.read_put_of_ne _ _ _ (by decide)⟩

/-- The chaining value that is there already changes nothing. -/
theorem withIv_self (handle : LiveHandle m) : handle.withIv (handle.arena.read .iv) = handle := by
  rw [withIv, Arena.put_read]

/-- Of two chaining values of one length the second one counts. -/
theorem withIv_withIv (handle : LiveHandle m) {first second : Bytes}
    (same : first.length = second.length) :
    (handle.withIv first).withIv second = handle.withIv second := by
  simp only [withIv, Arena.put_put _ same]

/-- A state of the mode that differs in its chaining value alone. -/
theorem withChain_iv (handle : LiveHandle m) (iv : Bytes) :
    handle.withChain { handle.chain with iv } = handle.withIv iv := by
  have kept (slot : Slot) (other : Slot.iv ≠ slot) :
      handle.arena.read slot = (handle.arena.put .iv 0 iv).read slot :=
    (Arena.read_put_of_ne _ _ _ other).symm
  simp only [withChain, withIv, chain]
  rw [kept .previous (by decide), Arena.put_read, kept .counter (by decide), Arena.put_read,
    kept .scratch (by decide), Arena.put_read]

/-- The last block of the textbook ciphertext of a message, from the chaining value of the
handle. -/
def lastOf (functions : BlockFunctions) (handle : LiveHandle m) (message : Bytes) : Bytes :=
  Textbook.last functions (handle.arena.read .live) handle.blockLength (handle.arena.read .iv)
    message

/-- What a call with MAC output comes to, once so much has been encrypted with it. -/
def tagged (functions : BlockFunctions) (handle : LiveHandle m) (consumed : Bytes)
    (call : MessageCall) : Outcome m :=
  (handle.withIv (handle.lastOf functions consumed)).answered (.wrote (.ok ())
    (if call.input = [] then call.buffer
    else handle.lastOf functions consumed ++ call.buffer.drop handle.blockLength)) []

/-- It has encrypted its input, whatever it has put out. -/
theorem exchange?_tagged {request : Request} {call : MessageCall}
    (asked : request.call? = some call) (encrypts : call.direction = .encrypt)
    (functions : BlockFunctions) (handle : LiveHandle m) (consumed : Bytes) :
    ∃ output, request.exchange? (handle.tagged functions consumed call) =
      some ⟨.encrypt, call.input, output⟩ := by
  rw [Request.exchange?, asked, ← encrypts]
  exact ⟨_, rfl⟩

variable [Monad m] [LawfulMonad m] {functions : BlockFunctions} {handle : LiveHandle m}

section Chaining

variable (fitted : handle.Fitted) (computes : handle.pin.algorithm.Computes functions)
  (chaining : handle.mode = .cbc) (plain : handle.flags.stealing = false)
  (rests : handle.carry = 0)

include fitted computes chaining plain rests

/-- Whole blocks are transformed by the run over them, from the chaining value of the handle to
the one that it is left with. -/
theorem transform_chains (direction : Direction) {input : Bytes}
    (aligned : handle.blockLength ∣ input.length) :
    ∃ next output, Gives (handle.transform direction input) (next, output) ∧
      output.length = input.length ∧ handle.Continues next ∧ next.carry = 0 ∧
      Bulk.runBlocks handle.blockLength
          (BlockChaining.step functions (handle.arena.read .live) direction)
          (handle.arena.read .iv) input = (next.arena.read .iv, output) := by
  have chains := chains_of_cbc chaining
  obtain ⟨cipher, available, context, keyed⟩ := fitted.cipher_eq chains computes
  have fits := fitted.chain_fits (rests ▸ fitted.positive chains)
  have sized := BlockChaining.step_sized keyed direction
  obtain ⟨ivWidth, width⟩ := Bulk.runBlocks_sized sized fits.positive fits.iv aligned
  obtain ⟨previous, previousWidth, given⟩ :=
    BlockChaining.run_gives keyed fits aligned direction
  let passed := Bulk.runBlocks handle.blockLength
    (BlockChaining.step functions cipher.context direction) handle.chain.iv input
  let after : Chain := { handle.chain with iv := passed.1, previous }
  have left : (handle.withChain after).chain = after := fitted.chain_withChain
    ⟨ivWidth, previousWidth, fits.counter, fits.scratch, fits.carry⟩
  rw [← context]
  refine ⟨handle.withChain after, passed.2, ?_, width, withChain_continues handle after, rests,
    Prod.ext (congrArg Chain.iv left).symm rfl⟩
  rw [transform, chaining, stealing, plain, Bool.and_false]
  exact chained_gives available given

omit plain in
/-- A MAC is written over the front of an output with room for it, or nothing for nothing. It is
the last ciphertext block, and the new chaining value, and nothing else is changed. -/
theorem tagInto_gives {input output : Bytes} (aligned : handle.blockLength ∣ input.length)
    (room : handle.blockLength ≤ output.length) :
    let tag := handle.lastOf functions input
    Gives (handle.tagInto input output)
      (handle.withIv tag,
        if input = [] then output else tag ++ output.drop handle.blockLength) := by
  intro tag
  have chains := chains_of_cbc chaining
  obtain ⟨cipher, available, context, keyed⟩ := fitted.cipher_eq chains computes
  have fits := fitted.chain_fits (rests ▸ fitted.positive chains)
  have chained := BlockChaining.mac_whole_gives keyed fits aligned
  rw [context] at chained
  rw [tagInto, available]
  apply Gives.bind (Gives.pure cipher)
  apply Gives.bind (chained.adapt Stop.fault)
  simp only [withChain_iv]
  cases input with
  | nil => exact Gives.pure _
  | cons byte rest =>
    have front : tag.length = (output.take handle.blockLength).length :=
      (Textbook.length_last (context ▸ keyed.lengthEncrypt) fits.iv _).trans
        (List.length_take_of_le room).symm
    apply Gives.bind ((Checked.split_gives room).adapt Stop.fault)
    exact Gives.bind ((Checked.replace_gives front).adapt Stop.fault) (Gives.pure _)

/-- With MAC output, that is what a call to encrypt comes to that is admitted. -/
theorem respond_tags (yields : handle.flags.mac = true) {request : Request} {call : MessageCall}
    (asked : request.call? = some call) (encrypts : call.direction = .encrypt)
    (admitted : handle.Admits call) :
    Yields (handle.respond request) (handle.tagged functions call.input call) := by
  have yieldsMac : (call.direction = .encrypt && handle.mac) = true := by
    simp [encrypts, mac, chaining, yields]
  have room := admitted.room
  rw [requiredOutput, if_pos yieldsMac] at room
  have tagged := tagInto_gives fitted computes chaining rests
    (admitted.aligned_of_plain chaining plain) room
  rw [respond_call handle asked, perform_of_admits admitted (fitted.positive_of_mustAlign _),
    if_pos yieldsMac]
  exact Yields.map (handle.concluded call.direction call.buffer) tagged

end Chaining

/-- What a run of calls in one direction keeps: the handle is as it was but for the state of the
mode, and what went in was taken to what came out by the run over its blocks. -/
structure Chained (functions : BlockFunctions) (origin : LiveHandle m) (direction : Direction)
    (past : List (Request × Outcome m)) (handle : LiveHandle m) : Prop where
  continues : origin.Continues handle
  rests : handle.carry = 0
  judged : ∀ entry ∈ past, entry.1.Judged origin entry.2
  connects : BlockChaining.Connects functions (origin.arena.read .live) origin.blockLength direction
    (origin.arena.read .iv) (Exchange.plaintexts (exchanged past))
    (Exchange.ciphertexts (exchanged past)) (handle.arena.read .iv)

/-- What a run of calls with MAC output keeps: the handle has the last ciphertext block of all
that was encrypted as its chaining value, and is else as it was; and each call that was
admitted has come to the same for all that was encrypted up to then. -/
structure Tags (functions : BlockFunctions) (origin : LiveHandle m)
    (past : List (Request × Outcome m)) (handle : LiveHandle m) : Prop where
  judged : ∀ entry ∈ past, entry.1.Judged origin entry.2
  aligned : origin.blockLength ∣ (Exchange.plaintexts (exchanged past)).length
  state : handle = origin.withIv (origin.lastOf functions (Exchange.plaintexts (exchanged past)))
  calls : ∀ index request outcome call, past[index]? = some (request, outcome) →
    request.call? = some call → origin.Admits call → outcome =
      origin.tagged functions (Exchange.plaintexts (exchanged (past.take (index + 1)))) call

omit [Monad m] [LawfulMonad m] in
/-- One more request keeps it, if it comes to what it should. -/
theorem Tags.concat {origin : LiveHandle m} {past : List (Request × Outcome m)}
    (tags : Tags functions origin past handle) {request : Request} {call : MessageCall}
    {outcome : Outcome m} {next : LiveHandle m} (asked : request.call? = some call)
    (decided : (request.exchange? outcome).isSome = true ↔ origin.Admits call)
    (aligned : origin.blockLength ∣
      (Exchange.plaintexts (exchanged (past ++ [(request, outcome)]))).length)
    (state : next = origin.withIv
      (origin.lastOf functions (Exchange.plaintexts (exchanged (past ++ [(request, outcome)])))))
    (comes : origin.Admits call → outcome = origin.tagged functions
      (Exchange.plaintexts (exchanged (past ++ [(request, outcome)]))) call) :
    Tags functions origin (past ++ [(request, outcome)]) next := by
  refine ⟨?_, aligned, state, ?_⟩
  · exact List.forall_mem_append.mpr
      ⟨tags.judged, List.forall_mem_singleton.mpr (.of_call asked decided)⟩
  · intro index other found otherCall at_ otherAsked admitted
    obtain ⟨before, front⟩ | ⟨now, front⟩ := getElem?_concat_cases at_
    · rw [front]
      exact tags.calls index other found otherCall before otherAsked admitted
    · obtain ⟨rfl, rfl⟩ := Prod.mk.inj now
      obtain rfl := Option.some.inj (asked.symm.trans otherAsked)
      rw [front]
      exact comes admitted

section Runs

variable {origin : LiveHandle m} {direction : Direction} {past : List (Request × Outcome m)}
  (fitted : origin.Fitted) (computes : origin.pin.algorithm.Computes functions)
  (chaining : origin.mode = .cbc) (plain : origin.flags.stealing = false)

include fitted computes chaining plain

/-- A call that is admitted later runs on, over whole blocks of the origin. -/
theorem Continues.transform_chains (continues : origin.Continues handle) (rests : handle.carry = 0)
    {call : MessageCall} (admitted : handle.Admits call) :
    ∃ next output, Gives (handle.transform call.direction call.input) (next, output) ∧
      output.length = call.input.length ∧ origin.blockLength ∣ call.input.length ∧
      handle.Continues next ∧ next.carry = 0 ∧
      Bulk.runBlocks origin.blockLength
          (BlockChaining.step functions (origin.arena.read .live) call.direction)
          (handle.arena.read .iv) call.input = (next.arena.read .iv, output) := by
  have fittedNow := fitted.of_sameShape continues.shape
  have computesNow : handle.pin.algorithm.Computes functions := by
    rw [continues.shape.pin]
    exact computes
  have chainingNow := continues.shape.mode.trans chaining
  have plainNow : handle.flags.stealing = false := by
    rw [continues.flags]
    exact plain
  have whole := admitted.aligned_of_plain chainingNow plainNow
  obtain ⟨next, output, transformed, width, onward, boundary, passed⟩ :=
    LiveHandle.transform_chains fittedNow computesNow chainingNow plainNow rests call.direction
      whole
  rw [continues.shape.width, continues.live] at passed
  exact ⟨next, output, transformed, width, continues.shape.width ▸ whole, onward, boundary, passed⟩

/-- Each call in the direction keeps what a run keeps. -/
theorem Chained.step (chained : Chained functions origin direction past handle)
    (noTag : direction = .encrypt → origin.flags.mac = false) {request : Request}
    (asks : request.Transforms direction) :
    Ensures (handle.respond request) fun outcome =>
      outcome.Answered ∧ ∃ next, outcome.handle = .live next ∧
        Chained functions origin direction (past ++ [(request, outcome)]) next := by
  obtain ⟨call, asked, rfl⟩ := asks
  obtain ⟨continues, rests, judged, connects⟩ := chained
  have noMac : (call.direction = .encrypt && handle.mac) = false := by
    rw [continues.options.2, mac]
    cases direction : call.direction with
    | encrypt => simp [noTag direction]
    | decrypt => rfl
  have positive := (fitted.of_sameShape continues.shape).positive_of_mustAlign call.input.length
  obtain ⟨after, reply, events, answer, decided, left⟩ :=
    respond_decided asked positive noMac _
      (continues.transform_chains fitted computes chaining plain rests)
  refine Ensures.mono answer fun outcome same => ?_
  subst same
  have judgedNow : request.Judged origin (after.answered reply events) :=
    .of_call asked (decided.trans (continues.admits_iff call))
  have judgedAll : ∀ entry ∈ past ++ [(request, after.answered reply events)],
      entry.1.Judged origin entry.2 :=
    List.forall_mem_append.mpr ⟨judged, List.forall_mem_singleton.mpr judgedNow⟩
  refine ⟨⟨reply, rfl⟩, after, rfl, ?_⟩
  obtain ⟨put, ⟨whole, onward, boundary, passed⟩, exchange⟩ | ⟨rfl, silent⟩ := left
  · refine ⟨continues.trans onward, boundary, judgedAll, ?_⟩
    rw [exchanged_concat, exchange, Option.toList_some, Exchange.plaintexts_append,
      Exchange.ciphertexts_append, Exchange.plaintexts_singleton, Exchange.ciphertexts_singleton]
    exact connects.append (fitted.positive (chains_of_cbc chaining)) whole passed
  · refine ⟨continues, rests, judgedAll, ?_⟩
    rw [exchanged_concat, silent, Option.toList_none, List.append_nil]
    exact connects

omit plain [LawfulMonad m] in
/-- The last ciphertext block is a block. -/
theorem length_lastOf (message : Bytes) :
    (origin.lastOf functions message).length = origin.blockLength := by
  have chains := chains_of_cbc chaining
  have width : (origin.arena.read .iv).length = origin.blockLength :=
    fitted.length_block (by decide)
  exact Textbook.length_last (fitted.length_encrypt chains computes) width message

omit plain [LawfulMonad m] in
/-- Where the last ciphertext block of a message is the chaining value, what follows the message
is chained to it. -/
theorem lastOf_append {message input : Bytes} (aligned : origin.blockLength ∣ message.length)
    (whole : origin.blockLength ∣ input.length) :
    (origin.withIv (origin.lastOf functions message)).lastOf functions input =
      origin.lastOf functions (message ++ input) := by
  have chains := chains_of_cbc chaining
  have width : (origin.arena.read .iv).length = origin.blockLength :=
    fitted.length_block (by decide)
  have fills : (origin.lastOf functions message).length = origin.arena.layout.size .iv :=
    (length_lastOf fitted computes chaining message).trans (fitted.size_eq (by decide)).symm
  have put : (origin.withIv (origin.lastOf functions message)).arena.read .iv =
      origin.lastOf functions message := Arena.read_put_whole _ fills
  rw [lastOf, put, (withIv_continues origin _).live]
  exact (Textbook.last_append (fitted.positive chains) (fitted.length_encrypt chains computes)
    width aligned whole).symm

/-- A call that is admitted goes on from the last ciphertext block of what was encrypted before to
that of all with its input. -/
theorem respond_tagged (rests : origin.carry = 0) (yields : origin.flags.mac = true)
    {message : Bytes} (aligned : origin.blockLength ∣ message.length) {request : Request}
    {call : MessageCall} (asked : request.call? = some call) (encrypts : call.direction = .encrypt)
    (admitted : origin.Admits call) :
    Yields ((origin.withIv (origin.lastOf functions message)).respond request)
      (origin.tagged functions (message ++ call.input) call) := by
  have continues := withIv_continues origin (origin.lastOf functions message)
  have onward := lastOf_append fitted computes chaining aligned
    (admitted.aligned_of_plain chaining plain)
  have same : (origin.lastOf functions message).length =
      (origin.lastOf functions (message ++ call.input)).length :=
    (length_lastOf fitted computes chaining _).trans (length_lastOf fitted computes chaining _).symm
  have comes := respond_tags (fitted.of_sameShape continues.shape) computes chaining plain rests
    yields asked encrypts ((continues.admits_iff call).mpr admitted)
  rw [tagged, onward, withIv_withIv origin same] at comes
  exact comes

/-- Each call to encrypt keeps what a run with MAC output keeps. -/
theorem Tags.step (tags : Tags functions origin past handle) (rests : origin.carry = 0)
    (yields : origin.flags.mac = true) {request : Request} (asks : request.Transforms .encrypt) :
    Ensures (handle.respond request) fun outcome =>
      outcome.Answered ∧ ∃ next, outcome.handle = .live next ∧
        Tags functions origin (past ++ [(request, outcome)]) next := by
  obtain ⟨call, asked, encrypts⟩ := asks
  have state := tags.state
  have continues : origin.Continues handle := state ▸ withIv_continues origin _
  have fittedNow := fitted.of_sameShape continues.shape
  by_cases admitted : handle.Admits call
  · have originAdmits := (continues.admits_iff call).mp admitted
    have whole := originAdmits.aligned_of_plain chaining plain
    have comes := respond_tagged fitted computes chaining plain rests yields tags.aligned asked
      encrypts originAdmits
    rw [← state] at comes
    refine Ensures.mono comes fun outcome same => ?_
    subst same
    obtain ⟨output, exchange⟩ := exchange?_tagged asked encrypts functions origin
      (Exchange.plaintexts (exchanged past) ++ call.input)
    have message : Exchange.plaintexts (exchanged (past ++ [(request, origin.tagged functions
        (Exchange.plaintexts (exchanged past) ++ call.input) call)])) =
          Exchange.plaintexts (exchanged past) ++ call.input := by
      rw [exchanged_concat, exchange, Option.toList_some, Exchange.plaintexts_append,
        Exchange.plaintexts_singleton]
      rfl
    refine ⟨⟨_, rfl⟩, _, rfl, tags.concat asked ?_ ?_ ?_ ?_⟩
    · rw [exchange]
      exact iff_of_true rfl originAdmits
    · rw [message, List.length_append]
      exact Nat.dvd_add tags.aligned whole
    · rw [message]
    · rw [message]
      exact fun _ => rfl
  · obtain ⟨cause, refused⟩ := respond_refused asked admitted (fittedNow.positive_of_mustAlign _)
    refine Ensures.mono refused fun outcome same => ?_
    subst same
    have silent := Request.exchange?_refused asked handle cause call.spoiled
    have refusedThere : ¬ origin.Admits call := mt (continues.admits_iff call).mpr admitted
    have decided : (request.exchange? (handle.answered
        (.wrote (.error cause) call.spoiled) [])).isSome = true ↔ origin.Admits call := by
      rw [silent]
      exact iff_of_false Bool.false_ne_true refusedThere
    refine ⟨⟨_, rfl⟩, handle, rfl, tags.concat asked decided ?_ ?_ (absurd · refusedThere)⟩ <;>
      rw [exchanged_concat, silent, Option.toList_none, List.append_nil]
    · exact tags.aligned
    · exact state

end Runs

omit [Monad m] [LawfulMonad m] in
/-- Nothing has been asked yet. -/
theorem Chained.initially (fitted : handle.Fitted) (chaining : handle.mode = .cbc)
    (rests : handle.carry = 0) (direction : Direction) :
    Chained functions handle direction [] handle := by
  refine ⟨Continues.refl handle, rests, List.forall_mem_nil _, ?_⟩
  exact BlockChaining.Connects.nil (fitted.positive (chains_of_cbc chaining)) _

omit [Monad m] [LawfulMonad m] in
/-- Where nothing was authenticated yet, the tags are in order. -/
theorem Tags.initially (fitted : handle.Fitted) : Tags functions handle [] handle := by
  have width : (handle.arena.read .iv).length = handle.blockLength :=
    fitted.length_block (by decide)
  refine ⟨List.forall_mem_nil _, Nat.dvd_zero _, ?_, fun _ _ _ _ found => nomatch found⟩
  have nothing : handle.lastOf functions (Exchange.plaintexts (exchanged (m := m) [])) =
      handle.arena.read .iv := Textbook.last_nil width
  rw [nothing, withIv_self]

/-- Over any run of calls in block chaining without stealing, whether the cipher has bulk
routines or not, and each of the calls goes through exactly if the handle admits it.

Encryption without MAC output writes the textbook ciphertext of all that was put in, from the
chaining value at the start, and leaves its last block as the chaining value. Decryption writes
the textbook plaintext, and leaves the last block of the ciphertext. Encryption with MAC output
writes over the front of its buffer the last block of the textbook ciphertext of all that was
put in up to then, or nothing if nothing was put in now, and leaves that block as the chaining
value; the rest of the buffer, and all else of the handle, is as it was. -/
theorem block_chaining_is_textbook (reachable : handle.Reachable)
    (computes : handle.pin.algorithm.Computes functions) (chaining : handle.mode = .cbc)
    (plain : handle.flags.stealing = false) (requests : List Request) :
    let context := handle.arena.read .live
    let size := handle.blockLength
    let iv := handle.arena.read .iv
    (handle.flags.mac = false → (∀ request ∈ requests, request.Transforms .encrypt) →
      Ensures ((Handle.live handle).respondAll requests) fun result =>
        let past := requests.zip result.2
        let plaintext := Exchange.plaintexts (exchanged past)
        let ciphertext := Exchange.ciphertexts (exchanged past)
        result.2.length = requests.length ∧ (∀ entry ∈ past, entry.1.Judged handle entry.2) ∧
          size ∣ plaintext.length ∧
          ciphertext = Textbook.encryption functions context size iv plaintext ∧
          ∃ last, result.1 = .live last ∧
            last.arena.read .iv = Bytes.ending size (iv ++ ciphertext)) ∧
    ((∀ request ∈ requests, request.Transforms .decrypt) →
      Ensures ((Handle.live handle).respondAll requests) fun result =>
        let past := requests.zip result.2
        let plaintext := Exchange.plaintexts (exchanged past)
        let ciphertext := Exchange.ciphertexts (exchanged past)
        result.2.length = requests.length ∧ (∀ entry ∈ past, entry.1.Judged handle entry.2) ∧
          size ∣ ciphertext.length ∧
          plaintext = Textbook.decryption functions context size iv ciphertext ∧
          ∃ last, result.1 = .live last ∧
            last.arena.read .iv = Bytes.ending size (iv ++ ciphertext)) ∧
    (handle.flags.mac = true → (∀ request ∈ requests, request.Transforms .encrypt) →
      Ensures ((Handle.live handle).respondAll requests) fun result =>
        let past := requests.zip result.2
        result.2.length = requests.length ∧ (∀ entry ∈ past, entry.1.Judged handle entry.2) ∧
          ∀ index request outcome call, past[index]? = some (request, outcome) →
            request.call? = some call → handle.Admits call →
              let consumed := Exchange.plaintexts (exchanged (past.take (index + 1)))
              let tag := Bytes.ending size
                (iv ++ Textbook.encryption functions context size iv consumed)
              tag.length = size ∧ outcome = (handle.withIv tag).answered (.wrote (.ok ())
                (if call.input = [] then call.buffer else tag ++ call.buffer.drop size)) []) := by
  intro context size iv
  have fitted := reachable.fitted
  have chains := chains_of_cbc chaining
  have rests : handle.carry = 0 := reachable.sound.boundary (by rw [chaining]; decide)
  have positive := fitted.positive chains
  have widths := fitted.length_encrypt chains computes
  have width : iv.length = size := fitted.length_block (by decide)
  have run (direction : Direction) (noTag : direction = .encrypt → handle.flags.mac = false)
      (asks : ∀ request ∈ requests, request.Transforms direction) :=
    Handle.respondAll_keeps (Chained functions handle direction) requests
      (fun request member past between chained =>
        chained.step fitted computes chaining plain noTag (asks request member))
      (Chained.initially fitted chaining rests direction)
  refine ⟨fun silent asks => ?_, fun asks => ?_, fun yields asks => ?_⟩
  · refine (run .encrypt (fun _ => silent) asks).mono fun result ends => ?_
    obtain ⟨lengths, _, last, live, chained⟩ := ends
    obtain ⟨aligned, same, ending⟩ := chained.connects.encryption positive widths width
    exact ⟨lengths, chained.judged, aligned, same, last, live, ending⟩
  · refine (run .decrypt nofun asks).mono fun result ends => ?_
    obtain ⟨lengths, _, last, live, chained⟩ := ends
    obtain ⟨aligned, same, ending⟩ := chained.connects.decryption positive width
    exact ⟨lengths, chained.judged, aligned, same, last, live, ending⟩
  · have tagging := Handle.respondAll_keeps (Tags functions handle) requests
      (fun request member past between tags =>
        tags.step fitted computes chaining plain rests yields (asks request member))
      (Tags.initially fitted)
    refine tagging.mono fun result ends => ?_
    obtain ⟨lengths, _, last, live, tags⟩ := ends
    refine ⟨lengths, tags.judged, fun index request outcome call found asked admitted => ?_⟩
    exact ⟨length_lastOf fitted computes chaining _,
      tags.calls index request outcome call found asked admitted⟩

/-- The specimen without and with MAC output: two blocks, a byte that is refused, and one more
block. -/
theorem block_chaining_is_textbook_specimen :
    let sends := [.encryptInPlace (Bytes.zeros 32), .encrypt [1] [2],
      .encrypt (Bytes.zeros 16) (Bytes.zeros 20)]
    let receives := [.decryptInPlace (Bytes.zeros 32), .decrypt [1] [2]]
    let handle := Specimen.keyed .cbc {}
    let tagging := Specimen.keyed .cbc { mac := true }
    let encryption := Textbook.encryption Standin.Flip.blockFunctions (Bytes.zeros 16) 16
      (Bytes.zeros 16)
    let decryption := Textbook.decryption Standin.Flip.blockFunctions (Bytes.zeros 16) 16
      (Bytes.zeros 16)
    Ensures ((Handle.live handle).respondAll sends) (fun result =>
      let past := sends.zip result.2
      Exchange.ciphertexts (exchanged past) = encryption (Exchange.plaintexts (exchanged past))) ∧
    Ensures ((Handle.live handle).respondAll receives) (fun result =>
      let past := receives.zip result.2
      Exchange.plaintexts (exchanged past) = decryption (Exchange.ciphertexts (exchanged past))) ∧
    Ensures ((Handle.live tagging).respondAll sends) fun result =>
      ∀ outcome, (sends.zip result.2)[2]? = some (sends[2], outcome) →
        let consumed := Exchange.plaintexts (exchanged ((sends.zip result.2).take 3))
        let tag := Bytes.ending 16 (Bytes.zeros 16 ++ encryption consumed)
        outcome = (tagging.withIv tag).answered (.wrote (.ok ()) (tag ++ Bytes.zeros 4)) [] := by
  intro sends receives handle tagging encryption decryption
  have asksTo (direction : Direction) {requests : List Request}
      (each : ∀ request ∈ requests, request.call?.map MessageCall.direction = some direction) :
      ∀ request ∈ requests, request.Transforms direction := by
    intro request member
    exact Option.map_eq_some_iff.mp (each request member)
  have encrypts := asksTo .encrypt (show ∀ request ∈ sends, _ by decide)
  have decrypts := asksTo .decrypt (show ∀ request ∈ receives, _ by decide)
  have reachable : handle.Reachable := Specimen.reachable_keyed .cbc {} rfl rfl
  have tagReachable : tagging.Reachable := Specimen.reachable_keyed .cbc { mac := true } rfl rfl
  have admitted : tagging.Admits ⟨.encrypt, Bytes.zeros 16, Bytes.zeros 20⟩ :=
    ⟨rfl, by decide, fun _ => by decide⟩
  refine ⟨?_, ?_, ?_⟩
  · have run :=
      (block_chaining_is_textbook reachable Specimen.computes rfl rfl sends).1 rfl encrypts
    exact run.mono fun result ends => ends.2.2.2.1
  · have run :=
      (block_chaining_is_textbook reachable Specimen.computes rfl rfl receives).2.1 decrypts
    exact run.mono fun result ends => ends.2.2.2.1
  · have run := (block_chaining_is_textbook tagReachable Specimen.computes rfl rfl sends).2.2 rfl
      encrypts
    refine run.mono fun result ends outcome found => ?_
    exact (ends.2.2 2 _ outcome _ found rfl admitted).2

end LiveHandle

end CipherEngine
