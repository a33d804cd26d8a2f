import CipherEngine.Proofs.Chaining.Boundary
import CipherEngine.Proofs.Chaining.Contract
import CipherEngine.Proofs.Handle.Replies

/-!
# What a handle keeps

A handle is reached by opening it and by requests to it. Whatever the primitive
does, no request changes the pin, the mode or the layout of the arena, so what
opening has judged holds for good: the slots have the declared sizes, the
primitive supports the mode, and a mode that chains blocks has blocks to chain.
The options never exclude each other, and only the feedback modes ever carry
keystream from one call to the next. The template, and whether the handle has a
key, change when a key is given and never else.

The arena is six slots that do not meet, so that the state of the mode can be put
back and taken out again, and the contexts stay out of it.
-/
namespace CipherEngine

variable {m : Type → Type}

/-- The mode keeps no keystream from one call to the next. -/
def Mode.Rests (mode : Mode) : Prop := mode ≠ .cfb ∧ mode ≠ .ofb

/-- Whether a mode keeps keystream can be read off it. -/
instance : DecidablePred Mode.Rests := fun mode =>
  inferInstanceAs (Decidable (mode ≠ .cfb ∧ mode ≠ .ofb))

/-- A mode that keeps keystream chains blocks. -/
theorem Mode.chainsBlocks_of_carries {mode : Mode} (carries : ¬ mode.Rests) :
    mode.chainsBlocks = true := by
  cases mode with
  | cfb | ofb => rfl
  | none | ecb | cbc | ctr | stream => exact absurd (by decide) carries

/-- A mode that chains blocks is not that of streams. -/
theorem Mode.ne_stream_of_chainsBlocks {mode : Mode} (chains : mode.chainsBlocks = true) :
    mode ≠ .stream := by
  rintro rfl
  cases chains

namespace LiveHandle

/-- A handle in block chaining chains blocks. -/
theorem chains_of_cbc {handle : LiveHandle m} (chaining : handle.mode = .cbc) :
    handle.mode.chainsBlocks = true := by
  rw [chaining]
  rfl

/-- The handles agree on what no request changes. -/
structure SameShape (handle other : LiveHandle m) : Prop where
  pin : other.pin = handle.pin
  mode : other.mode = handle.mode
  layout : other.arena.layout = handle.arena.layout

/-- The handle is as opening has judged it. -/
structure Fitted (handle : LiveHandle m) : Prop where
  contexts : handle.arena.layout.contextSize = handle.pin.algorithm.contextSize
  blocks : handle.arena.layout.blockLength = handle.pin.algorithm.blockLength
  supported : handle.primitive.supports handle.mode = true
  positive : handle.mode.chainsBlocks = true → 0 < handle.blockLength

/-- The handles have the same template, from the same verdict on their last keys. -/
structure SameKey (handle other : LiveHandle m) : Prop where
  keyed : other.keyed = handle.keyed
  template : other.arena.read .template = handle.arena.read .template

/-- The handle has changed in its bytes at most: the options and the key are the same, every
mode but that of streams has the same context, and one that keeps no keystream carries what it
carried. -/
structure Steady (handle next : LiveHandle m) : Prop
    extends SameShape handle next, SameKey handle next where
  flags : next.flags = handle.flags
  carry : handle.mode.Rests → next.carry = handle.carry
  context : handle.mode ≠ .stream → next.arena.read .live = handle.arena.read .live

/-- The options do not exclude each other, and a mode that keeps no keystream carries none. -/
structure Sound (handle : LiveHandle m) : Prop where
  consistent : handle.flags.consistent = true
  boundary : handle.mode.Rests → handle.carry = 0

/-- What a request leaves of the handle: the shape, a sound handle if it was sound, and unless
it gives a key, the key. In every mode but that of streams the context then stays too, or is
the template again. -/
structure LeftBy (handle : LiveHandle m) (request : Request) (next : LiveHandle m) : Prop where
  shape : handle.SameShape next
  sound : handle.Sound → next.Sound
  key : (∀ key, request ≠ .setKey key) → handle.SameKey next
  context : (∀ key, request ≠ .setKey key) → handle.mode ≠ .stream →
    next.arena.read .live = handle.arena.read .live ∨
      next.arena.read .live = handle.arena.read .template

/-- A handle has its own shape. -/
theorem SameShape.refl (handle : LiveHandle m) : handle.SameShape handle := ⟨rfl, rfl, rfl⟩

/-- The shape stays over two changes that each keep it. -/
theorem SameShape.trans {first second third : LiveHandle m} (earlier : first.SameShape second)
    (later : second.SameShape third) : first.SameShape third :=
  ⟨later.pin.trans earlier.pin, later.mode.trans earlier.mode, later.layout.trans earlier.layout⟩

/-- The length of a block is a matter of the shape. -/
theorem SameShape.width {handle next : LiveHandle m} (shape : handle.SameShape next) :
    next.blockLength = handle.blockLength := by
  rw [blockLength, shape.pin]
  rfl

/-- A handle has its own key. -/
theorem SameKey.refl (handle : LiveHandle m) : handle.SameKey handle := ⟨rfl, rfl⟩

/-- No change at all is steady. -/
theorem Steady.refl (handle : LiveHandle m) : handle.Steady handle :=
  ⟨SameShape.refl handle, SameKey.refl handle, rfl, fun _ => rfl, fun _ => rfl⟩

/-- A steady change keeps a handle sound. -/
theorem Steady.sound {handle next : LiveHandle m} (steady : handle.Steady next)
    (sound : handle.Sound) : next.Sound := by
  constructor
  · rw [steady.flags]
    exact sound.consistent
  · rw [steady.mode]
    exact fun rests => (steady.carry rests).trans (sound.boundary rests)

/-- What opening has judged depends on the shape only. -/
theorem Fitted.of_sameShape {handle other : LiveHandle m} (fitted : handle.Fitted)
    (same : handle.SameShape other) : other.Fitted := by
  obtain ⟨pin, mode, layout⟩ := same
  constructor
  · rw [layout, pin]
    exact fitted.contexts
  · rw [layout, pin]
    exact fitted.blocks
  · rw [primitive, pin, mode]
    exact fitted.supported
  · rw [blockLength, pin, mode]
    exact fitted.positive

end LiveHandle

/-- Opening gives an unkeyed handle on a pin whose conditions hold, with a new arena. -/
theorem Handle.openOn_gives [Monad m] {registry : Registry m} {id : AlgorithmId} {mode : Mode}
    {flags : Flags} {machine : Machine} {handle : LiveHandle m}
    (opened : (Handle.openOn registry id mode flags machine).value = .ok (.live handle)) :
    ∃ pin arena disabled, handle = LiveHandle.unkeyed pin arena mode flags ∧
      openingConditions pin.algorithm id disabled mode flags = .ok () ∧
      openingArena pin.algorithm flags machine = .ok arena := by
  unfold Handle.openOn at opened
  simp only at opened
  split at opened
  · cases opened
  · split at opened
    · cases opened
    · next accepted =>
      split at opened
      · cases opened
      · next granted =>
        cases opened
        exact ⟨_, _, _, rfl, accepted, granted⟩

/-- What the conditions on an opened handle say. -/
theorem openingConditions_hold {algorithm : Algorithm m} {id : AlgorithmId} {disabled : Bool}
    {mode : Mode} {flags : Flags}
    (accepted : openingConditions algorithm id disabled mode flags = .ok ()) :
    flags.consistent = true ∧ algorithm.primitive.supports mode = true ∧
      (mode.chainsBlocks = true → algorithm.blockLength ≠ 0) := by
  unfold openingConditions at accepted
  split at accepted
  · cases accepted
  · split at accepted
    · cases accepted
    · next consistent =>
      split at accepted
      · cases accepted
      · next supported =>
        split at accepted
        · cases accepted
        · next filled =>
          refine ⟨by simpa using consistent, by simpa using supported, ?_⟩
          intro chains empty
          exact filled (by simp [chains, empty])

/-- An opened handle is fitted. -/
theorem LiveHandle.Fitted.opened [Monad m] {registry : Registry m} {id : AlgorithmId}
    {mode : Mode} {flags : Flags} {machine : Machine} {handle : LiveHandle m}
    (opened : (Handle.openOn registry id mode flags machine).value = .ok (.live handle)) :
    handle.Fitted := by
  obtain ⟨pin, arena, disabled, rfl, accepted, granted⟩ := Handle.openOn_gives opened
  obtain ⟨_, supported, filled⟩ := openingConditions_hold accepted
  unfold openingArena at granted
  split at granted
  · cases granted
  · next layout sized =>
    obtain ⟨_, contexts, blocks, _⟩ := Layout.ofSizes_ok sized
    obtain ⟨sameLayout, _⟩ := Arena.ofLayout_ok granted
    refine ⟨?_, ?_, supported, ?_⟩
    · exact (congrArg Layout.contextSize sameLayout).trans contexts
    · exact (congrArg Layout.blockLength sameLayout).trans blocks
    · intro chains
      refine Nat.pos_of_ne_zero fun empty => filled chains ?_
      exact UInt64.toNat_inj.mp empty

namespace LiveHandle

/-- Inputs are aligned to blocks with bytes in them. -/
theorem Fitted.positive_of_mustAlign {handle : LiveHandle m} (fitted : handle.Fitted)
    (inputLength : Nat) (judged : handle.mustAlign inputLength = true) :
    0 < handle.blockLength := by
  apply fitted.positive
  unfold mustAlign at judged
  split at judged
  · next chosen => rw [chosen]; rfl
  · next chosen => rw [chosen]; rfl
  · cases judged

/-- Each block slot has the length of a block. -/
theorem Fitted.size_eq {handle : LiveHandle m} (fitted : handle.Fitted) {slot : Slot}
    (blocks : slot ≠ .live ∧ slot ≠ .template) :
    handle.arena.layout.size slot = handle.blockLength := by
  have width := congrArg UInt64.toNat fitted.blocks
  cases slot with
  | live => exact absurd rfl blocks.1
  | template => exact absurd rfl blocks.2
  | iv | previous | counter | scratch => exact width

/-- So what is read of it has. -/
theorem Fitted.length_block {handle : LiveHandle m} (fitted : handle.Fitted) {slot : Slot}
    (blocks : slot ≠ .live ∧ slot ≠ .template) :
    (handle.arena.read slot).length = handle.blockLength :=
  (Arena.length_read _ _).trans (fitted.size_eq blocks)

/-- Slots have one size in handles of one block length and context size. -/
theorem Fitted.sizes {n : Type → Type} {handle : LiveHandle m} {other : LiveHandle n}
    (fitted : handle.Fitted) (otherFitted : other.Fitted)
    (contexts : other.pin.algorithm.contextSize = handle.pin.algorithm.contextSize)
    (blocks : other.pin.algorithm.blockLength = handle.pin.algorithm.blockLength) (slot : Slot) :
    other.arena.layout.size slot = handle.arena.layout.size slot := by
  rw [← fitted.contexts, ← otherFitted.contexts] at contexts
  rw [← fitted.blocks, ← otherFitted.blocks] at blocks
  cases slot <;> simp only [Layout.size, contexts, blocks]

/-- The context has the declared size. -/
theorem Fitted.length_context {handle : LiveHandle m} (fitted : handle.Fitted) :
    (handle.arena.read .live).length = handle.pin.algorithm.contextSize.toNat := by
  rw [Arena.length_read]
  exact congrArg UInt64.toNat fitted.contexts

/-- With less than a block carried, the state of the mode fits. -/
theorem Fitted.chain_fits {handle : LiveHandle m} (fitted : handle.Fitted)
    (small : handle.carry < handle.blockLength) : handle.chain.Fits handle.blockLength := by
  constructor
  · exact fitted.length_block (by decide)
  · exact fitted.length_block (by decide)
  · exact fitted.length_block (by decide)
  · exact fitted.length_block (by decide)
  · exact small

/-- A block that was put back into its slot is there. -/
theorem Fitted.read_withChain_previous {handle : LiveHandle m} (fitted : handle.Fitted)
    {chain : Chain} (width : chain.previous.length = handle.blockLength) :
    (handle.withChain chain).arena.read .previous = chain.previous := by
  rw [withChain]
  simp only
  rw [Arena.read_put_of_ne _ _ _ (by decide), Arena.read_put_of_ne _ _ _ (by decide)]
  exact Arena.read_put_whole _ (width.trans (fitted.size_eq (by decide)).symm)

/-- The state of the mode that was put back is taken out again. -/
theorem Fitted.chain_withChain {handle : LiveHandle m} (fitted : handle.Fitted) {chain : Chain}
    (fits : chain.Fits handle.blockLength) : (handle.withChain chain).chain = chain := by
  have fills {slot : Slot} {block : Bytes} (width : block.length = handle.blockLength)
      (blocks : slot ≠ .live ∧ slot ≠ .template) :
      block.length = handle.arena.layout.size slot := width.trans (fitted.size_eq blocks).symm
  have iv : (handle.withChain chain).arena.read .iv = chain.iv := by
    rw [withChain]
    simp only
    rw [Arena.read_put_of_ne _ _ _ (by decide), Arena.read_put_of_ne _ _ _ (by decide),
      Arena.read_put_of_ne _ _ _ (by decide)]
    exact Arena.read_put_whole _ (fills fits.iv (by decide))
  have counter : (handle.withChain chain).arena.read .counter = chain.counter := by
    rw [withChain]
    simp only
    rw [Arena.read_put_of_ne _ _ _ (by decide)]
    exact Arena.read_put_whole _ (fills fits.counter (by decide))
  have scratch : (handle.withChain chain).arena.read .scratch = chain.scratch :=
    Arena.read_put_whole _ (fills fits.scratch (by decide))
  rw [LiveHandle.chain, iv, fitted.read_withChain_previous fits.previous, counter, scratch]
  rfl

/-- A new chaining value leaves the other slots alone. -/
theorem read_afterIv (handle : LiveHandle m) (iv : Bytes) {slot : Slot} (other : Slot.iv ≠ slot) :
    (handle.afterIv iv).1.arena.read slot = handle.arena.read slot :=
  (Arena.read_put_of_ne _ 0 _ other).trans (Arena.read_clear_of_ne handle.arena other)

/-- A new chaining value takes the place of the old one, and ends the carry. -/
theorem Fitted.chain_afterIv {handle : LiveHandle m} (fitted : handle.Fitted) (iv : Bytes) :
    (handle.afterIv iv).1.chain =
      { handle.chain with iv := Bytes.fit handle.blockLength iv, carry := 0 } := by
  have written : (handle.afterIv iv).1.arena.read .iv = Bytes.fit handle.blockLength iv := by
    rw [afterIv, Arena.read_put_self, Arena.read_clear_self, fitted.size_eq (by decide),
      Bytes.overlayAt_take_zeros]
  rw [chain, written, read_afterIv handle iv (by decide), read_afterIv handle iv (by decide),
    read_afterIv handle iv (by decide)]
  rfl

/-- The state of the mode has no part in the contexts. -/
theorem read_withChain (handle : LiveHandle m) (chain : Chain) {slot : Slot}
    (contexts : slot = .live ∨ slot = .template) :
    (handle.withChain chain).arena.read slot = handle.arena.read slot := by
  rw [withChain]
  simp only
  rcases contexts with rfl | rfl <;>
    rw [Arena.read_put_of_ne _ _ _ (by decide), Arena.read_put_of_ne _ _ _ (by decide),
      Arena.read_put_of_ne _ _ _ (by decide), Arena.read_put_of_ne _ _ _ (by decide)]

/-- In a mode that chains blocks, the primitive has a block transform, and the handle has it
under its context. -/
theorem Fitted.cipher_available [Monad m] {handle : LiveHandle m} (fitted : handle.Fitted)
    (chains : handle.mode.chainsBlocks = true) :
    ∃ block, handle.pin.algorithm.primitive.block = some block ∧
      handle.cipher = pure ⟨block, handle.primitive.bulk, handle.arena.read .live⟩ := by
  have supported := fitted.supported
  have needed : handle.mode.needs = some .block := by
    simpa [Mode.chainsBlocks] using chains
  rw [Primitive.supports, needed] at supported
  obtain ⟨block, present⟩ := Option.isSome_iff_exists.mp supported
  refine ⟨block, present, ?_⟩
  rw [cipher, present]

/-- In a mode that chains blocks, the handle has the block cipher of its pin, under
its context. -/
theorem Fitted.cipher_eq [Monad m] {handle : LiveHandle m} (fitted : handle.Fitted)
    (chains : handle.mode.chainsBlocks = true) {functions : BlockFunctions}
    (computes : handle.pin.algorithm.Computes functions) :
    ∃ cipher, handle.cipher = pure cipher ∧ cipher.context = handle.arena.read .live ∧
      cipher.Computes functions handle.blockLength := by
  obtain ⟨block, present, available⟩ := fitted.cipher_available chains
  exact ⟨_, available, rfl, computes block present _ fitted.length_context⟩

/-- Under the context of a handle that chains blocks, encryption keeps their length. -/
theorem Fitted.length_encrypt [Monad m] {handle : LiveHandle m} (fitted : handle.Fitted)
    (chains : handle.mode.chainsBlocks = true) {functions : BlockFunctions}
    (computes : handle.pin.algorithm.Computes functions) (block : Bytes)
    (width : block.length = handle.blockLength) :
    (functions.encrypt (handle.arena.read .live) block).length = handle.blockLength := by
  obtain ⟨cipher, _, context, keyed⟩ := fitted.cipher_eq chains computes
  rw [← context]
  exact keyed.lengthEncrypt block width

/-- Putting the state of the mode back changes nothing else. -/
theorem withChain_sameShape (handle : LiveHandle m) (chain : Chain) :
    handle.SameShape (handle.withChain chain) := ⟨rfl, rfl, rfl⟩

/-- Putting the state of the mode back is steady, if the carry is as it was. -/
theorem withChain_steady (handle : LiveHandle m) {chain : Chain}
    (carry : handle.mode.Rests → chain.carry = handle.carry) :
    handle.Steady (handle.withChain chain) :=
  ⟨withChain_sameShape handle chain, ⟨rfl, read_withChain handle chain (.inr rfl)⟩, rfl, carry,
    fun _ => read_withChain handle chain (.inl rfl)⟩

/-- A new chaining value changes bytes and what is carried, and not the shape. -/
theorem afterIv_sameShape (handle : LiveHandle m) (iv : Bytes) :
    handle.SameShape (handle.afterIv iv).1 := ⟨rfl, rfl, rfl⟩

/-- Writing to a slot other than the template is steady, and to the context where streams are
transformed. -/
theorem put_steady (handle : LiveHandle m) {slot : Slot} (other : slot ≠ .template)
    (context : handle.mode ≠ .stream → slot ≠ .live) (bytes : Bytes) :
    handle.Steady { handle with arena := handle.arena.put slot 0 bytes } :=
  ⟨⟨rfl, rfl, rfl⟩, ⟨rfl, Arena.read_put_of_ne _ _ _ other⟩, rfl, fun _ => rfl,
    fun blocks => Arena.read_put_of_ne _ _ _ (context blocks)⟩

/-- A counter is steady, accepted or not: at most its own slot is written to. -/
theorem afterCounter_steady (handle : LiveHandle m) (counter : Option Bytes) :
    handle.Steady (handle.afterCounter counter).1 := by
  have written := put_steady handle (show Slot.counter ≠ .template by decide)
    fun _ => show Slot.counter ≠ .live by decide
  cases counter with
  | none => exact written _
  | some block =>
    rw [afterCounter]
    split
    · exact written block
    · split
      · exact written _
      · exact Steady.refl handle

/-- A reset changes bytes and what is carried, and not the shape. -/
theorem afterReset_sameShape (handle : LiveHandle m) : handle.SameShape handle.afterReset.1 := by
  rw [afterReset]
  split
  · exact ⟨rfl, rfl, rfl⟩
  · exact SameShape.refl handle

/-- The handle after a reset: both contexts are the template, and all else is zero. -/
theorem read_afterReset {handle : LiveHandle m} (keyed : handle.keyed = true) (slot : Slot) :
    handle.afterReset.1.arena.read slot = match slot with
      | .live | .template => handle.arena.read .template
      | _ => Bytes.zeros (handle.arena.layout.size slot) := by
  rw [afterReset, if_pos keyed]
  simp only
  cases slot with
  | live =>
    rw [Arena.read_clear_of_ne _ (by decide), Arena.read_clear_of_ne _ (by decide),
      Arena.read_clear_of_ne _ (by decide), Arena.read_clear_of_ne _ (by decide)]
    exact Arena.read_put_whole _ (Arena.length_read _ _)
  | template =>
    rw [Arena.read_clear_of_ne _ (by decide), Arena.read_clear_of_ne _ (by decide),
      Arena.read_clear_of_ne _ (by decide), Arena.read_clear_of_ne _ (by decide)]
    exact Arena.read_put_of_ne _ _ _ (by decide)
  | iv =>
    rw [Arena.read_clear_of_ne _ (by decide), Arena.read_clear_of_ne _ (by decide),
      Arena.read_clear_of_ne _ (by decide)]
    exact Arena.read_clear_self _ _
  | previous =>
    rw [Arena.read_clear_of_ne _ (by decide), Arena.read_clear_of_ne _ (by decide)]
    exact Arena.read_clear_self _ _
  | counter =>
    rw [Arena.read_clear_of_ne _ (by decide)]
    exact Arena.read_clear_self _ _
  | scratch => exact Arena.read_clear_self _ _

/-- A reset brings the template back, and leaves it as it is. -/
theorem afterReset_keeps (handle : LiveHandle m) :
    handle.SameKey handle.afterReset.1 ∧
      (handle.afterReset.1.arena.read .live = handle.arena.read .live ∨
        handle.afterReset.1.arena.read .live = handle.arena.read .template) := by
  by_cases keyed : handle.keyed = true
  · refine ⟨⟨?_, read_afterReset keyed .template⟩, .inr (read_afterReset keyed .live)⟩
    rw [afterReset, if_pos keyed]
  · rw [afterReset, if_neg keyed]
    exact ⟨SameKey.refl handle, .inl rfl⟩

/-- A key leaves the shape, and a sound handle sound. -/
theorem afterKeying_keeps (handle : LiveHandle m) (keying : Keying) :
    handle.SameShape (handle.afterKeying keying).1 ∧
      (handle.Sound → (handle.afterKeying keying).1.Sound) := by
  rw [afterKeying]
  cases keying.verdict <;>
    exact ⟨⟨rfl, rfl, rfl⟩, fun sound => ⟨sound.consistent, sound.boundary⟩⟩

/-- A key leaves the blocks alone. -/
theorem read_afterKeying (handle : LiveHandle m) (keying : Keying) {slot : Slot}
    (blocks : slot ≠ .live ∧ slot ≠ .template) :
    (handle.afterKeying keying).1.arena.read slot = handle.arena.read slot := by
  have written := Arena.read_put_of_ne handle.arena 0 keying.context blocks.1.symm
  rw [afterKeying]
  cases keying.verdict with
  | ok => exact (Arena.read_committed_of_ne _ blocks.2.symm).trans written
  | error cause => exact written

/-- Switching stealing changes the options alone, accepted or not. -/
theorem setStealing_only (handle : LiveHandle m) (enable : Bool) :
    ∃ flags, (handle.setStealing enable).1 = { handle with flags } := by
  rw [setStealing]
  split <;> exact ⟨_, rfl⟩

/-- Switching MAC output changes the options alone, accepted or not. -/
theorem setMac_only (handle : LiveHandle m) (enable : Bool) :
    ∃ flags, (handle.setMac enable).1 = { handle with flags } := by
  rw [setMac]
  split <;> exact ⟨_, rfl⟩

/-- Stealing is not switched on beside MAC output. -/
theorem Sound.setStealing {handle : LiveHandle m} (enable : Bool) (sound : handle.Sound) :
    (handle.setStealing enable).1.Sound := by
  rw [LiveHandle.setStealing]
  split
  · exact sound
  · next apart =>
    have consistent : (handle.flags.change (.stealing enable)).consistent = true := by
      rw [Bool.not_eq_true] at apart
      rw [Flags.consistent, Flags.change, apart]
      rfl
    exact ⟨consistent, sound.boundary⟩

/-- MAC output is not switched on beside stealing. -/
theorem Sound.setMac {handle : LiveHandle m} (enable : Bool) (sound : handle.Sound) :
    (handle.setMac enable).1.Sound := by
  rw [LiveHandle.setMac]
  split
  · exact sound
  · next apart =>
    have consistent : (handle.flags.change (.mac enable)).consistent = true := by
      rw [Bool.not_eq_true, Bool.and_comm] at apart
      rw [Flags.consistent, Flags.change, apart]
      rfl
    exact ⟨consistent, sound.boundary⟩

/-- After a reset nothing is carried. -/
theorem Sound.afterReset {handle : LiveHandle m} (sound : handle.Sound) :
    handle.afterReset.1.Sound := by
  rw [LiveHandle.afterReset]
  split
  · exact ⟨sound.consistent, fun _ => rfl⟩
  · exact sound

variable [Monad m] [LawfulMonad m]

/-- A mode with a state runs on the state of the handle. -/
theorem chained_gives {handle : LiveHandle m} {cipher : KeyedCipher m}
    (available : handle.cipher = pure cipher)
    {computation : KeyedCipher m → Checked m (Chain × Bytes)} {after : Chain} {output : Bytes}
    (given : Gives (computation cipher) (after, output)) :
    Gives (do
        let cipher ← handle.cipher
        let (chain, output) ← checked (computation cipher)
        pure (handle.withChain chain, output))
      (handle.withChain after, output) := by
  rw [available]
  apply Gives.bind (Gives.pure cipher)
  exact Gives.bind (given.adapt Stop.fault) (Gives.pure _)

/-- A realignment leaves the shape, the options, the key and the context, and no carry where
there was none. -/
theorem syncFeedback_keeps (handle : LiveHandle m) :
    Guards (handle.syncFeedback : Checked m (LiveHandle m)) fun after =>
      handle.SameShape after ∧ (handle.Sound → after.Sound) ∧ handle.SameKey after ∧
        after.arena.read .live = handle.arena.read .live := by
  unfold syncFeedback
  split
  · next allowed =>
    have inside : handle.carry ≠ 0 := by
      simp only [Bool.and_eq_true, decide_eq_true_eq] at allowed
      exact allowed.2
    refine Guards.after _ fun chain => Guards.pure ⟨withChain_sameShape handle chain, ?_,
      ⟨rfl, read_withChain handle chain (.inr rfl)⟩, read_withChain handle chain (.inl rfl)⟩
    intro sound
    exact ⟨sound.consistent, fun rests => absurd (sound.boundary rests) inside⟩
  · exact Guards.pure ⟨SameShape.refl handle, id, SameKey.refl handle, rfl⟩

/-- A transform is steady, in every mode. -/
theorem transform_steady (handle : LiveHandle m) (direction : Direction) (buffer : Bytes) :
    Guards (handle.transform direction buffer) fun result => handle.Steady result.1 := by
  have chained (computation : KeyedCipher m → Checked m (Chain × Bytes))
      (kept : handle.mode.Rests → ∀ cipher,
        Guards (computation cipher) fun result => result.1.carry = handle.carry) :
      Guards (do
          let cipher ← handle.cipher
          let (chain, output) ← checked (computation cipher)
          pure (handle.withChain chain, output))
        fun result => handle.Steady result.1 := by
    apply Guards.after
    intro cipher
    by_cases rests : handle.mode.Rests
    · exact Guards.bind ((kept rests cipher).adapt Stop.fault) fun _ same =>
        Guards.pure (withChain_steady handle fun _ => same)
    · exact Guards.after _ fun _ =>
        Guards.pure (withChain_steady handle fun asked => absurd asked rests)
  unfold transform
  cases mode : handle.mode with
  | none => exact Guards.pure (Steady.refl handle)
  | ecb =>
    apply Guards.after
    intro cipher
    exact Guards.after _ fun _ => Guards.pure (Steady.refl handle)
  | cbc =>
    apply chained
    intro _ cipher
    cases direction with
    | encrypt => exact BlockChaining.encrypt_carry cipher _ handle.chain buffer
    | decrypt => exact BlockChaining.decrypt_carry cipher _ handle.chain buffer
  | cfb => exact chained _ fun rests => absurd mode rests.1
  | ofb => exact chained _ fun rests => absurd mode rests.2
  | ctr => exact chained _ fun _ cipher => Counter.transform_carry cipher handle.chain buffer
  | stream =>
    simp only [transformStream]
    cases handle.primitive.stream with
    | none => exact Guards.throw _ _
    | some stream =>
      exact Guards.after _ fun _ =>
        Guards.pure (put_steady handle (by decide) (fun other => absurd mode other) _)

/-- A message call is steady. -/
theorem perform_steady (handle : LiveHandle m) (call : MessageCall) :
    Guards (handle.perform call) fun result => handle.Steady result.1 := by
  unfold perform
  apply Guards.after
  intro _
  apply Guards.after
  intro _
  split
  · unfold tagInto
    apply Guards.after
    intro cipher
    apply Guards.bind ((BlockChaining.mac_carry cipher handle.chain call.input).adapt Stop.fault)
    intro chained same
    have kept : handle.Steady (handle.withChain chained.1) :=
      withChain_steady handle fun _ => same
    simp only
    split
    · apply Guards.after
      intro _
      exact Guards.after _ fun _ => Guards.pure kept
    · exact Guards.pure kept
  · unfold transformInto
    apply Guards.after
    intro _
    exact Guards.bind ((transform_steady handle _ _).adapt _) fun _ kept => Guards.pure kept

/-- On a fitted handle a chaining value fits its slot. -/
theorem Fitted.respond_setIv {handle : LiveHandle m} (fitted : handle.Fitted) (iv : Bytes) :
    handle.respond (.setIv iv) =
      pure ((handle.afterIv iv).1.answered (.done (.ok ())) (handle.afterIv iv).2) :=
  (respond_setIv_cases handle iv).resolve_right fun apart => apart.1 (fitted.size_eq (by decide))

/-- And so does a counter. -/
theorem Fitted.respond_setCounter {handle : LiveHandle m} (fitted : handle.Fitted)
    (counter : Option Bytes) :
    handle.respond (.setCounter counter) =
      pure ((handle.afterCounter counter).1.answered (.done (handle.afterCounter counter).2) []) :=
  (respond_setCounter_cases handle counter).resolve_right fun apart =>
    apart.1 (fitted.size_eq (by decide))

/-- No request changes the shape of the handle or closes it, a sound handle stays sound, and
the key stays unless one is given. -/
theorem respond_keeps (handle : LiveHandle m) (request : Request) :
    Ensures (handle.respond request) fun outcome =>
      ∃ next, outcome.handle = .live next ∧ handle.LeftBy request next := by
  have steady {after : LiveHandle m} (kept : handle.Steady after) : handle.LeftBy request after :=
    ⟨kept.toSameShape, kept.sound, fun _ => kept.toSameKey,
      fun _ blocks => .inl (kept.context blocks)⟩
  have optional {flags : Flags} (sound : handle.Sound → LiveHandle.Sound { handle with flags }) :
      handle.LeftBy request { handle with flags } :=
    ⟨⟨rfl, rfl, rfl⟩, sound, fun _ => ⟨rfl, rfl⟩, fun _ _ => .inl rfl⟩
  have unchanged := steady (Steady.refl handle)
  cases asked : request.call? with
  | some call =>
    rw [respond_call handle asked]
    refine Ensures.map (perform_steady handle call) fun result kept => ?_
    match result with
    | .ok (after, output) => exact ⟨after, rfl, steady (kept _ rfl)⟩
    | .error (.refused _) | .error (.late _ _) | .error (.fault _) =>
      exact ⟨handle, rfl, unchanged⟩
  | none =>
    refine (handle.respond_endsIn asked handle.syncFeedback_keeps).mono fun outcome ends => ?_
    cases ends with
    | keyed key keying =>
      obtain ⟨shape, sound⟩ := afterKeying_keeps handle keying
      exact ⟨_, rfl, shape, sound, fun other => absurd rfl (other key),
        fun other => absurd rfl (other key)⟩
    | valued iv =>
      exact ⟨_, rfl, afterIv_sameShape handle iv, fun sound => ⟨sound.consistent, fun _ => rfl⟩,
        fun _ => ⟨rfl, read_afterIv handle iv (by decide)⟩,
        fun _ _ => .inl (read_afterIv handle iv (by decide))⟩
    | counted counter => exact ⟨_, rfl, steady (afterCounter_steady handle counter)⟩
    | aligned kept =>
      obtain ⟨shape, sound, key, context⟩ := kept
      exact ⟨_, rfl, shape, sound, fun _ => key, fun _ _ => .inl context⟩
    | stealing enable =>
      obtain ⟨flags, only⟩ := setStealing_only handle enable
      have sound := @Sound.setStealing m handle enable
      rw [only] at sound ⊢
      exact ⟨_, rfl, optional sound⟩
    | tagging enable =>
      obtain ⟨flags, only⟩ := setMac_only handle enable
      have sound := @Sound.setMac m handle enable
      rw [only] at sound ⊢
      exact ⟨_, rfl, optional sound⟩
    | restored =>
      obtain ⟨key, context⟩ := afterReset_keeps handle
      exact ⟨_, rfl, afterReset_sameShape handle, Sound.afterReset, fun _ => key,
        fun _ _ => context⟩
    | shown | faulted => exact ⟨handle, rfl, unchanged⟩

/-- The handle of an outcome that a request may have is what the request leaves. -/
theorem LeftBy.of_returned {handle next : LiveHandle m} {request : Request} {outcome : Outcome m}
    (returned : MayReturn (handle.respond request) outcome) (left : outcome.handle = .live next) :
    handle.LeftBy request next := by
  obtain ⟨kept, live, keeps⟩ := returned _ (respond_keeps handle request)
  obtain rfl : kept = next := Handle.live.inj (live.symm.trans left)
  exact keeps

/-- The handles that opening and requests lead to, on any registry. -/
inductive Reachable : LiveHandle m → Prop where
  | opened {registry : Registry m} {id : AlgorithmId} {mode : Mode} {flags : Flags}
    {machine : Machine} {handle : LiveHandle m} :
    (Handle.openOn registry id mode flags machine).value = .ok (.live handle) → Reachable handle
  | requested {handle next : LiveHandle m} {request : Request} {outcome : Outcome m} :
    Reachable handle → MayReturn (handle.respond request) outcome → outcome.handle = .live next →
      Reachable next

/-- Every handle is as opening has judged it. -/
theorem Reachable.fitted {handle : LiveHandle m} (reachable : Reachable handle) :
    handle.Fitted := by
  induction reachable with
  | opened given => exact Fitted.opened given
  | requested earlier returned left inductionHypothesis =>
    exact inductionHypothesis.of_sameShape (LeftBy.of_returned returned left).shape

/-- Every handle is sound. -/
theorem Reachable.sound {handle : LiveHandle m} (reachable : Reachable handle) :
    handle.Sound := by
  induction reachable with
  | opened given =>
    obtain ⟨_, _, _, rfl, accepted, _⟩ := Handle.openOn_gives given
    exact ⟨(openingConditions_hold accepted).1, fun _ => rfl⟩
  | requested earlier returned left inductionHypothesis =>
    exact (LeftBy.of_returned returned left).sound inductionHypothesis

end LiveHandle

end CipherEngine
