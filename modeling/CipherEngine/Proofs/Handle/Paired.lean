import CipherEngine.Proofs.Handle.Reach

/-!
# A sender and a receiver

One handle encrypts, and what comes out is decrypted by another that is keyed
alike. Whether their states agree is left open here: a passage is a message, the
ciphertext that went over and what the receiver made of it, and the two need not
be equal.

A relation between two paired handles and the passages up to now, which every
further passage keeps, is kept over a whole run; so an account of single messages
is an account of sessions.
-/
namespace CipherEngine

/-- A message that went over: what the sender was given, what came out, and what the
receiver made of it. -/
structure Passage where
  message : Bytes
  ciphertext : Bytes
  opened : Bytes

/-- The exchange of the sender. -/
def Passage.sent (passage : Passage) : Exchange :=
  ⟨.encrypt, passage.message, passage.ciphertext⟩

/-- The exchange of the receiver. -/
def Passage.received (passage : Passage) : Exchange :=
  ⟨.decrypt, passage.ciphertext, passage.opened⟩

/-- The request asks to encrypt. -/
def Request.Encrypts (request : Request) : Prop :=
  ∃ call, request.call? = some call ∧ call.direction = .encrypt

/-- The request asks to decrypt what came out of the exchange, with room for the result. -/
def Exchange.Feeds (exchange : Exchange) (request : Request) : Prop :=
  ∃ call, request.call? = some call ∧ call.direction = .decrypt ∧
    call.input = exchange.output ∧ call.input.length ≤ call.buffer.length

/-- The exchange of what came out for what went in. -/
def Exchange.returned (exchange : Exchange) : Exchange :=
  ⟨.decrypt, exchange.output, exchange.input⟩

/-- The receiver has taken passages back exactly if it opened the messages. -/
theorem received_eq_returned_iff (passages : List Passage) :
    passages.map Passage.received = (passages.map Passage.sent).map Exchange.returned ↔
      passages.map Passage.opened = passages.map Passage.message := by
  rw [List.map_map, List.map_inj_left, List.map_inj_left]
  simp [Passage.received, Passage.sent, Exchange.returned]

/-- If the request is a call, it went through. -/
def Request.Passed {m : Type → Type} (request : Request) (outcome : Outcome m) : Prop :=
  request.call?.isSome = true → (request.exchange? outcome).isSome = true

/-- If the request is a call, it went through exactly if the handle admits it. -/
def Request.Judged {m : Type → Type} (handle : LiveHandle m) (request : Request)
    (outcome : Outcome m) : Prop :=
  ∀ call, request.call? = some call →
    ((request.exchange? outcome).isSome = true ↔ handle.Admits call)

/-- It is enough to know that of the call that the request makes. -/
theorem Request.Judged.of_call {m : Type → Type} {handle : LiveHandle m} {request : Request}
    {call : MessageCall} {outcome : Outcome m} (asked : request.call? = some call)
    (decided : (request.exchange? outcome).isSome = true ↔ handle.Admits call) :
    request.Judged handle outcome := by
  intro other again
  obtain rfl := Option.some.inj (asked.symm.trans again)
  exact decided

namespace LiveHandle

variable {m : Type → Type}

/-- The handle is as it was but for the state of the mode. -/
structure Continues (handle next : LiveHandle m) : Prop where
  shape : handle.SameShape next
  flags : next.flags = handle.flags
  keyed : next.keyed = handle.keyed
  live : next.arena.read .live = handle.arena.read .live

/-- A handle continues itself. -/
theorem Continues.refl (handle : LiveHandle m) : handle.Continues handle :=
  ⟨SameShape.refl handle, rfl, rfl, rfl⟩

/-- What continues a continuation continues the handle. -/
theorem Continues.trans {handle middle last : LiveHandle m} (earlier : handle.Continues middle)
    (later : middle.Continues last) : handle.Continues last := by
  constructor
  · exact ⟨later.shape.pin.trans earlier.shape.pin, later.shape.mode.trans earlier.shape.mode,
      later.shape.layout.trans earlier.shape.layout⟩
  · exact later.flags.trans earlier.flags
  · exact later.keyed.trans earlier.keyed
  · exact later.live.trans earlier.live

/-- A handle whose state of the mode is put back continues. -/
theorem withChain_continues (handle : LiveHandle m) (chain : Chain) :
    handle.Continues (handle.withChain chain) :=
  ⟨withChain_sameShape handle chain, rfl, rfl, read_withChain handle chain (Or.inl rfl)⟩

/-- The options stay in force. -/
theorem Continues.options {handle next : LiveHandle m} (continues : handle.Continues next) :
    next.stealing = handle.stealing ∧ next.mac = handle.mac := by
  constructor
  · rw [stealing, stealing, continues.shape.mode, continues.flags]
  · rw [mac, mac, continues.shape.mode, continues.flags]

/-- The same calls are admitted. -/
theorem Continues.admits_iff {handle next : LiveHandle m} (continues : handle.Continues next)
    (call : MessageCall) : next.Admits call ↔ handle.Admits call := by
  obtain ⟨stealing, mac⟩ := continues.options
  have room : next.requiredOutput call.direction call.input.length =
      handle.requiredOutput call.direction call.input.length := by
    rw [requiredOutput, requiredOutput, mac, continues.shape.width]
  have judged : next.mustAlign call.input.length = handle.mustAlign call.input.length := by
    rw [mustAlign, mustAlign, continues.shape.mode, stealing, continues.shape.width]
  constructor
  · rintro ⟨keyed, fits, aligned⟩
    rw [continues.keyed] at keyed
    rw [room] at fits
    rw [judged, continues.shape.width] at aligned
    exact ⟨keyed, fits, aligned⟩
  · rintro ⟨keyed, fits, aligned⟩
    rw [← continues.keyed] at keyed
    rw [← room] at fits
    rw [← judged, ← continues.shape.width] at aligned
    exact ⟨keyed, fits, aligned⟩

/-- The sender encrypts the message of the passage to its ciphertext, and the receiver
decrypts that to what it opened. -/
structure Carries [Monad m] (sender receiver next nextReceiver : LiveHandle m)
    (passage : Passage) : Prop where
  width : passage.ciphertext.length = passage.message.length
  openedWidth : passage.opened.length = passage.message.length
  sends : Gives (sender.transform .encrypt passage.message) (next, passage.ciphertext)
  opens : Gives (receiver.transform .decrypt passage.ciphertext) (nextReceiver, passage.opened)
  continues : sender.Continues next
  otherContinues : receiver.Continues nextReceiver

/-- The handles have one algorithm, mode and choice of stealing, make no MAC and have one
context, under which decryption undoes encryption. -/
structure Paired [Monad m] (functions : BlockFunctions) (sender receiver : LiveHandle m) :
    Prop where
  fitted : sender.Fitted
  otherFitted : receiver.Fitted
  computes : sender.pin.algorithm.Computes functions
  invertible : functions.InvertibleUnder (sender.arena.read .live) sender.blockLength
  algorithm : receiver.pin.algorithm = sender.pin.algorithm
  mode : receiver.mode = sender.mode
  stealing : receiver.stealing = sender.stealing
  mac : sender.mac = false
  keyed : receiver.keyed = sender.keyed
  live : receiver.arena.read .live = sender.arena.read .live

variable [Monad m] {functions : BlockFunctions} {sender receiver : LiveHandle m}

namespace Paired

/-- The two handles have one block length. -/
theorem width (paired : sender.Paired functions receiver) :
    receiver.blockLength = sender.blockLength := by
  rw [blockLength, paired.algorithm]
  rfl

/-- In a mode that chains blocks, the two handles have the same keyed cipher. -/
theorem cipher_eq (paired : sender.Paired functions receiver)
    (chains : sender.mode.chainsBlocks = true) : receiver.cipher = sender.cipher := by
  have needed : sender.mode.needs = some .block := by
    simpa [Mode.chainsBlocks] using chains
  have supported := paired.fitted.supported
  rw [Primitive.supports, needed] at supported
  obtain ⟨block, present⟩ := Option.isSome_iff_exists.mp supported
  have same : receiver.primitive = sender.primitive := by
    rw [primitive, paired.algorithm]
    rfl
  rw [cipher, cipher, same, present, paired.live]

/-- Handles that continue stay paired. -/
theorem continues {next nextReceiver : LiveHandle m} (paired : sender.Paired functions receiver)
    (goesOn : sender.Continues next) (otherGoesOn : receiver.Continues nextReceiver) :
    next.Paired functions nextReceiver := by
  obtain ⟨stealing, mac⟩ := goesOn.options
  obtain ⟨otherStealing, _⟩ := otherGoesOn.options
  constructor
  · exact paired.fitted.of_sameShape goesOn.shape
  · exact paired.otherFitted.of_sameShape otherGoesOn.shape
  · rw [goesOn.shape.pin]
    exact paired.computes
  · rw [goesOn.live, goesOn.shape.width]
    exact paired.invertible
  · rw [otherGoesOn.shape.pin, goesOn.shape.pin, paired.algorithm]
  · rw [otherGoesOn.shape.mode, goesOn.shape.mode, paired.mode]
  · rw [otherStealing, stealing, paired.stealing]
  · rw [mac, paired.mac]
  · rw [otherGoesOn.keyed, goesOn.keyed, paired.keyed]
  · rw [otherGoesOn.live, goesOn.live, paired.live]

/-- No result of the sender is a MAC. -/
theorem transforms (paired : sender.Paired functions receiver) (direction : Direction) :
    (direction = .encrypt && sender.mac) = false := by
  rw [paired.mac, Bool.and_false]

/-- Where an alignment is judged, there are blocks to align to. -/
theorem positive (paired : sender.Paired functions receiver) {length : Nat}
    (judged : sender.mustAlign length = true) : 0 < sender.blockLength := by
  apply paired.fitted.positive
  unfold mustAlign at judged
  cases mode : sender.mode <;> simp [mode] at judged <;> rfl

/-- The receiver judges alignments as the sender does. -/
theorem mustAlign_eq (paired : sender.Paired functions receiver) (length : Nat) :
    receiver.mustAlign length = sender.mustAlign length := by
  rw [mustAlign, mustAlign, paired.mode, paired.stealing, paired.width]

/-- What the sender takes, the receiver takes back, with room for it. -/
theorem admits (paired : sender.Paired functions receiver) {call reading : MessageCall}
    (admitted : sender.Admits call) (decrypts : reading.direction = .decrypt)
    (same : reading.input.length = call.input.length)
    (room : reading.input.length ≤ reading.buffer.length) : receiver.Admits reading := by
  constructor
  · exact paired.keyed.trans admitted.keyed
  · simpa [requiredOutput, decrypts] using room
  · rw [paired.mustAlign_eq, same, paired.width]
    exact admitted.aligned

end Paired

variable [LawfulMonad m]

/-- The call of a passage is answered with its ciphertext, and who decrypts that is answered
with what the receiver opened. -/
theorem Carries.respond {next nextReceiver : LiveHandle m} {passage : Passage}
    (carries : sender.Carries receiver next nextReceiver passage)
    (paired : sender.Paired functions receiver) {request : Request} {call : MessageCall}
    (asked : request.call? = some call) (encrypts : call.direction = .encrypt)
    (input : call.input = passage.message) (admitted : sender.Admits call) :
    (∃ reply, let outcome := answered next reply []
      Yields (sender.respond request) outcome ∧
        request.exchange? outcome = some passage.sent) ∧
      ∀ reading, passage.sent.Feeds reading →
        ∃ reply, let outcome := answered nextReceiver reply []
          Yields (receiver.respond reading) outcome ∧
            reading.exchange? outcome = some passage.received := by
  constructor
  · have sends := carries.sends
    rw [← encrypts, ← input] at sends
    have width : passage.ciphertext.length = call.input.length := by
      rw [input]
      exact carries.width
    refine ⟨_, respond_gives asked admitted paired.positive (paired.transforms _) sends, ?_⟩
    rw [Request.exchange?_answered asked next width, encrypts, input]
    rfl
  · rintro reading ⟨readingCall, read, decrypts, same, room⟩
    have opens := carries.opens
    change readingCall.input = passage.ciphertext at same
    rw [← decrypts, ← same] at opens
    have readWidth : readingCall.input.length = call.input.length := by
      rw [same, carries.width, input]
    have width : passage.opened.length = readingCall.input.length := by
      rw [carries.openedWidth, readWidth, input]
    have positive : receiver.mustAlign readingCall.input.length = true →
        0 < receiver.blockLength := by
      rw [paired.mustAlign_eq, paired.width]
      exact paired.positive
    have passes : (readingCall.direction = .encrypt && receiver.mac) = false := by
      simp [decrypts]
    have readable := paired.admits admitted decrypts readWidth room
    refine ⟨_, respond_gives read readable positive passes opens, ?_⟩
    rw [Request.exchange?_answered read nextReceiver width, decrypts, same]
    rfl

/-- What every passage keeps, a run keeps: a run of requests to encrypt goes through as far
as the sender admits them, and whoever decrypts the ciphertexts in their order gets what the
receiver opens, in every passage of the run. -/
theorem run_passages (Related : LiveHandle m → LiveHandle m → List Passage → Prop)
    (paired : ∀ sender receiver finished, Related sender receiver finished →
      sender.Paired functions receiver)
    (step : ∀ sender receiver finished message, Related sender receiver finished →
      (sender.mustAlign message.length = true → message.length % sender.blockLength = 0) →
      ∃ next nextReceiver passage, passage.message = message ∧
        sender.Carries receiver next nextReceiver passage ∧
        Related next nextReceiver (finished ++ [passage]))
    {sends : List Request} (encrypts : ∀ request ∈ sends, request.Encrypts)
    {finished : List Passage} (related : Related sender receiver finished) :
    ∃ last lastReceiver passages outcomes,
      Yields ((Handle.live sender).respondAll sends) (.live last, outcomes) ∧
      List.Forall₂ (Request.Judged sender) sends outcomes ∧
      exchanges sends outcomes = passages.map Passage.sent ∧
      Related last lastReceiver (finished ++ passages) ∧
      ∀ receives, List.Forall₂ Exchange.Feeds (passages.map Passage.sent) receives →
        ∃ received,
          Yields ((Handle.live receiver).respondAll receives) (.live lastReceiver, received) ∧
          List.Forall₂ Request.Passed receives received ∧
          exchanges receives received = passages.map Passage.received := by
  induction sends generalizing sender receiver finished with
  | nil =>
    refine ⟨sender, receiver, [], [], Yields.pure _, .nil, rfl, ?_, ?_⟩
    · simpa using related
    · rintro receives ⟨⟩
      exact ⟨[], Yields.pure _, .nil, rfl⟩
  | cons request rest inductionHypothesis =>
    obtain ⟨call, asked, direction⟩ := encrypts request List.mem_cons_self
    have restEncrypts : ∀ other ∈ rest, other.Encrypts :=
      fun other member => encrypts other (List.mem_cons_of_mem request member)
    have together := paired sender receiver finished related
    by_cases admitted : sender.Admits call
    · obtain ⟨next, nextReceiver, passage, same, carries, kept⟩ :=
        step sender receiver finished call.input related admitted.aligned
      obtain ⟨⟨reply, answer, exchanged⟩, reads⟩ :=
        carries.respond together asked direction same.symm admitted
      obtain ⟨last, lastReceiver, passages, outcomes, yielded, judged, sent, ends, delivered⟩ :=
        inductionHypothesis restEncrypts kept
      refine ⟨last, lastReceiver, passage :: passages, _,
        Handle.respondAll_cons answer yielded, .cons (.of_call asked ?_) (judged.imp ?_),
        ?_, ?_, ?_⟩
      · rw [exchanged]
        exact iff_of_true rfl admitted
      · intro other outcome fine otherCall otherAsked
        rw [fine otherCall otherAsked]
        exact carries.continues.admits_iff otherCall
      · rw [exchanges_cons, exchanged, sent]
        rfl
      · simpa using ends
      · rintro receives (_ | @⟨_, reading, _, others, fed, feeds⟩)
        obtain ⟨readReply, readAnswer, readExchanged⟩ := reads reading fed
        obtain ⟨received, finishes, passed, returned⟩ := delivered others feeds
        refine ⟨_, Handle.respondAll_cons readAnswer finishes, .cons ?_ passed, ?_⟩
        · intro _
          rw [readExchanged]
          rfl
        · rw [exchanges_cons, readExchanged, returned]
          rfl
    · obtain ⟨cause, refused⟩ := respond_refused asked admitted together.positive
      obtain ⟨last, lastReceiver, passages, outcomes, yielded, judged, sent, ends, delivered⟩ :=
        inductionHypothesis restEncrypts related
      have silent := Request.exchange?_refused asked sender cause call.spoiled
      refine ⟨last, lastReceiver, passages, _, Handle.respondAll_cons refused yielded,
        .cons (.of_call asked ?_) judged, ?_, ends, delivered⟩
      · rw [silent]
        exact iff_of_false Bool.false_ne_true admitted
      · rw [exchanges_cons, silent]
        exact sent

end LiveHandle

end CipherEngine
