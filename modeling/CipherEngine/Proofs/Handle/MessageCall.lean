import CipherEngine.Handle.Request
import CipherEngine.Proofs.Computation
import Mathlib.Data.List.Forall2

/-!
# Message calls

Four requests transform a message: each of the two directions, into an output
buffer or in place. They differ in where the input comes from, and a refused
encryption spoils the buffer that a refused decryption leaves alone. Apart from
this they are one computation, and so are they treated here: a `MessageCall` has
a direction, an input and the buffer that the result is written over.

A handle admits a call when nothing refuses it. That an admitted call goes
through is a statement about each mode.
-/
namespace CipherEngine

/-- A request to transform a message. -/
structure MessageCall where
  direction : Direction
  input : Bytes
  /-- What the result is written over, which is the input itself in place. -/
  buffer : Bytes
deriving DecidableEq

/-- The message call that a request makes. -/
def Request.call? : Request → Option MessageCall
  | .encrypt input output => some ⟨.encrypt, input, output⟩
  | .decrypt input output => some ⟨.decrypt, input, output⟩
  | .encryptInPlace buffer => some ⟨.encrypt, buffer, buffer⟩
  | .decryptInPlace buffer => some ⟨.decrypt, buffer, buffer⟩
  | _ => none

/-- What a refused call leaves of its buffer. -/
def MessageCall.spoiled (call : MessageCall) : Bytes := call.direction.spoil call.buffer

variable {m : Type → Type}

/-- No refusal applies to the call: the handle has a key, the buffer is long enough,
and in a mode of whole blocks the input is aligned. -/
structure LiveHandle.Admits (handle : LiveHandle m) (call : MessageCall) : Prop where
  keyed : handle.keyed = true
  room : handle.requiredOutput call.direction call.input.length ≤ call.buffer.length
  aligned : handle.mustAlign call.input.length = true →
    call.input.length % handle.blockLength = 0

namespace LiveHandle

variable [Monad m]

/-- A message call, whichever request makes it. -/
def perform (handle : LiveHandle m) (call : MessageCall) : Attempt m (LiveHandle m × Bytes) := do
  handle.requireKey
  handle.requireFit call.direction call.input.length call.buffer.length
  if call.direction = .encrypt && handle.mac then handle.tagInto call.input call.buffer
  else handle.transformInto call.direction call.input call.buffer

variable [LawfulMonad m]

/-- A value that is taken without a stop is handed on. -/
theorem checked_pure_bind {α β : Type} (value : α) (next : α → Attempt m β) :
    checked (pure value : Checked m α) >>= next = next value := by
  have handed : checked (pure value : Checked m α) = pure value :=
    map_pure (Except.mapError Stop.fault) (Except.ok value)
  rw [handed, pure_bind]

/-- A buffer is cut inside, and what follows is handed the pieces. -/
theorem checked_split_bind {α : Type} {count : Nat} {bytes : Bytes} (inside : count ≤ bytes.length)
    (next : Bytes × Bytes → Attempt m α) :
    checked (Checked.split count bytes) >>= next = next (bytes.take count, bytes.drop count) := by
  rw [Checked.split, if_pos inside, checked_pure_bind]

omit [Monad m] [LawfulMonad m] in
/-- It makes no difference to a refusal whether the output was written to, if what was written is
what it held. -/
theorem concluded_after (handle : LiveHandle m) (direction : Direction) (output : Bytes)
    (result : Except Stop (LiveHandle m × Bytes)) :
    handle.concluded direction output (result.mapError (Stop.after output)) =
      handle.concluded direction output result := by
  match result with
  | .ok _ | .error (.refused _) | .error (.late _ _) | .error (.fault _) => rfl

/-- What follows a first step in two ways is concluded alike, if it is after every value. -/
theorem concluded_bind (handle : LiveHandle m) (direction : Direction) (output : Bytes) {α : Type}
    (first : Attempt m α) {next other : α → Attempt m (LiveHandle m × Bytes)}
    (alike : ∀ value, handle.concluded direction output <$> (next value).run =
      handle.concluded direction output <$> (other value).run) :
    handle.concluded direction output <$> (first >>= next).run =
      handle.concluded direction output <$> (first >>= other).run := by
  rw [ExceptT.run_bind, ExceptT.run_bind, map_bind, map_bind]
  refine bind_congr fun result => ?_
  cases result with
  | ok value => exact alike value
  | error stop => rfl

/-- Into the buffer that the input is, the transform is concluded as the one in place. -/
theorem concluded_transformInto_self (handle : LiveHandle m) (direction : Direction)
    (buffer : Bytes) :
    handle.concluded direction buffer <$> (handle.transformInto direction buffer buffer).run =
      handle.concluded direction buffer <$> (handle.transform direction buffer).run := by
  have transformed : handle.transformInto direction buffer buffer =
      ExceptT.adapt (Stop.after buffer) (handle.transform direction buffer) := by
    rw [transformInto, checked_split_bind (Nat.le_refl _)]
    simp
  rw [transformed]
  change handle.concluded direction buffer <$>
    (Except.mapError (Stop.after buffer) <$> (handle.transform direction buffer).run) = _
  rw [← comp_map]
  exact map_congr (handle.concluded_after direction buffer)

/-- A request that makes a message call is answered with what the call leaves. -/
theorem respond_call (handle : LiveHandle m) {request : Request} {call : MessageCall}
    (asked : request.call? = some call) :
    handle.respond request =
      handle.concluded call.direction call.buffer <$> (handle.perform call).run := by
  cases request with
  | encrypt input output =>
    cases asked
    simp [respond, perform, encrypt]
  | decrypt input output =>
    cases asked
    simp [respond, perform, decrypt]
  | encryptInPlace buffer =>
    cases asked
    rw [respond, ← map_eq_pure_bind, perform, encryptInPlace]
    refine (concluded_bind _ _ _ _ fun _ => concluded_bind _ _ _ _ fun _ => ?_).symm
    simp only [decide_true, Bool.true_and]
    split
    · rfl
    · exact concluded_transformInto_self handle .encrypt buffer
  | decryptInPlace buffer =>
    cases asked
    rw [respond, ← map_eq_pure_bind, perform, decryptInPlace]
    refine (concluded_bind _ _ _ _ fun _ => concluded_bind _ _ _ _ fun _ => ?_).symm
    exact concluded_transformInto_self handle .decrypt buffer
  | _ => cases asked

/-- A call that is admitted is its transform, or its MAC. -/
theorem perform_of_admits {handle : LiveHandle m} {call : MessageCall}
    (admitted : handle.Admits call)
    (positive : handle.mustAlign call.input.length = true → 0 < handle.blockLength) :
    handle.perform call =
      if call.direction = .encrypt && handle.mac then handle.tagInto call.input call.buffer
      else handle.transformInto call.direction call.input call.buffer := by
  rw [perform, requireKey, if_pos admitted.keyed, pure_bind, requireFit,
    if_neg (Nat.not_lt.mpr admitted.room)]
  by_cases judged : handle.mustAlign call.input.length = true
  · rw [if_pos judged, Checked.remainder, if_neg (Nat.ne_of_gt (positive judged)),
      checked_pure_bind, if_pos (admitted.aligned judged), pure_bind]
  · rw [if_neg judged, pure_bind]

/-- A call that is admitted ends as its transform does, before the rest of the buffer. -/
theorem perform_gives {handle next : LiveHandle m} {call : MessageCall} {output : Bytes}
    (admitted : handle.Admits call)
    (positive : handle.mustAlign call.input.length = true → 0 < handle.blockLength)
    (transforms : (call.direction = .encrypt && handle.mac) = false)
    (given : Gives (handle.transform call.direction call.input) (next, output)) :
    Gives (handle.perform call) (next, output ++ call.buffer.drop call.input.length) := by
  have room := admitted.room
  have inside : call.input.length ≤ call.buffer.length := by
    simpa [requiredOutput, transforms] using room
  rw [perform_of_admits admitted positive, transforms, if_neg Bool.false_ne_true, transformInto,
    checked_split_bind inside]
  exact Gives.bind (given.adapt _) (Gives.pure _)

/-- A short buffer and an input that is not aligned are refused. -/
theorem requireFit_stops (handle : LiveHandle m) {direction : Direction}
    {inputLength outputLength : Nat}
    (positive : handle.mustAlign inputLength = true → 0 < handle.blockLength)
    (unfit : handle.requiredOutput direction inputLength ≤ outputLength →
      ¬ (handle.mustAlign inputLength = true → inputLength % handle.blockLength = 0)) :
    ∃ cause, Stops (handle.requireFit direction inputLength outputLength) (.refused cause) := by
  rw [requireFit]
  by_cases room : handle.requiredOutput direction inputLength ≤ outputLength
  · obtain ⟨judged, rest⟩ := Classical.not_imp.mp (unfit room)
    have given := (Checked.remainder_gives (m := m) inputLength (positive judged)).adapt Stop.fault
    refine ⟨.argument (.misaligned inputLength handle.blockLength), ?_⟩
    rw [if_neg (Nat.not_lt.mpr room), if_pos judged]
    apply Stops.after given
    rw [if_neg rest]
    exact Stops.throw _
  · rw [if_pos (Nat.not_le.mp room)]
    exact ⟨_, Stops.throw _⟩

/-- A call that is not admitted is refused, and nothing is transformed. -/
theorem perform_stops {handle : LiveHandle m} {call : MessageCall}
    (refused : ¬ handle.Admits call)
    (positive : handle.mustAlign call.input.length = true → 0 < handle.blockLength) :
    ∃ cause, Stops (handle.perform call) (.refused cause) := by
  rw [perform, requireKey]
  by_cases keyed : handle.keyed = true
  · obtain ⟨cause, stopped⟩ := requireFit_stops handle positive
      fun room aligned => refused ⟨keyed, room, aligned⟩
    rw [if_pos keyed]
    exact ⟨cause, Stops.after (Gives.pure ()) (Stops.bind _ stopped)⟩
  · rw [if_neg keyed]
    exact ⟨_, Stops.bind _ (Stops.throw _)⟩

/-- An admitted call is answered with the result over the front of the buffer. -/
theorem respond_gives {handle next : LiveHandle m} {request : Request} {call : MessageCall}
    {output : Bytes} (asked : request.call? = some call) (admitted : handle.Admits call)
    (positive : handle.mustAlign call.input.length = true → 0 < handle.blockLength)
    (transforms : (call.direction = .encrypt && handle.mac) = false)
    (given : Gives (handle.transform call.direction call.input) (next, output)) :
    Yields (handle.respond request)
      (next.answered (.wrote (.ok ()) (output ++ call.buffer.drop call.input.length)) []) := by
  rw [respond_call handle asked]
  exact Yields.map (handle.concluded call.direction call.buffer)
    (perform_gives admitted positive transforms given)

/-- A call that is not admitted leaves the handle as it was. -/
theorem respond_refused {handle : LiveHandle m} {request : Request} {call : MessageCall}
    (asked : request.call? = some call) (refused : ¬ handle.Admits call)
    (positive : handle.mustAlign call.input.length = true → 0 < handle.blockLength) :
    ∃ cause, Yields (handle.respond request)
      (handle.answered (.wrote (.error cause) call.spoiled) []) := by
  obtain ⟨cause, stopped⟩ := perform_stops refused positive
  refine ⟨cause, ?_⟩
  rw [respond_call handle asked]
  exact Yields.map (handle.concluded call.direction call.buffer) stopped

end LiveHandle

/-- A message call that went through, with the bytes that came out for the input. -/
structure Exchange where
  direction : Direction
  input : Bytes
  output : Bytes
deriving DecidableEq

namespace Exchange

/-- The side of an exchange that is plaintext. -/
def plaintext (exchange : Exchange) : Bytes :=
  exchange.direction.plaintext exchange.input exchange.output

/-- The side of an exchange that is ciphertext. -/
def ciphertext (exchange : Exchange) : Bytes :=
  exchange.direction.ciphertext exchange.input exchange.output

/-- All plaintext of the exchanges, in order. -/
def plaintexts (exchanges : List Exchange) : Bytes := (exchanges.map plaintext).flatten

/-- All ciphertext of the exchanges, in order. -/
def ciphertexts (exchanges : List Exchange) : Bytes := (exchanges.map ciphertext).flatten

/-- The plaintext of exchanges is that of the earlier ones and then that of the later. -/
theorem plaintexts_append (earlier later : List Exchange) :
    plaintexts (earlier ++ later) = plaintexts earlier ++ plaintexts later := by
  simp [plaintexts]

/-- And so is the ciphertext. -/
theorem ciphertexts_append (earlier later : List Exchange) :
    ciphertexts (earlier ++ later) = ciphertexts earlier ++ ciphertexts later := by
  simp [ciphertexts]

/-- The plaintext of one exchange is its own. -/
theorem plaintexts_singleton (exchange : Exchange) :
    plaintexts [exchange] = exchange.plaintext := List.append_nil _

/-- And so is the ciphertext. -/
theorem ciphertexts_singleton (exchange : Exchange) :
    ciphertexts [exchange] = exchange.ciphertext := List.append_nil _

end Exchange

/-- The exchange that a request and its outcome are, if the request is a message
call that went through. -/
def Request.exchange? (request : Request) (outcome : Outcome m) : Option Exchange :=
  match request.call?, outcome.reply with
  | some call, .ok (.wrote (.ok ()) written) =>
    some ⟨call.direction, call.input, written.take call.input.length⟩
  | _, _ => none

/-- The exchanges among the requests, in order. -/
def exchanges (requests : List Request) (outcomes : List (Outcome m)) : List Exchange :=
  (requests.zip outcomes).filterMap fun pair => pair.1.exchange? pair.2

/-- The answer to an admitted call is the exchange of the input for the result. -/
theorem Request.exchange?_answered {request : Request} {call : MessageCall}
    (asked : request.call? = some call) (next : LiveHandle m) {output : Bytes}
    (width : output.length = call.input.length) :
    request.exchange? (next.answered
        (.wrote (.ok ()) (output ++ call.buffer.drop call.input.length)) []) =
      some ⟨call.direction, call.input, output⟩ := by
  simp only [Request.exchange?, asked, LiveHandle.answered]
  rw [List.take_append_of_le_length (Nat.le_of_eq width.symm), ← width, List.take_length]

/-- A message call that was refused is no exchange. -/
theorem Request.exchange?_refused {request : Request} {call : MessageCall}
    (asked : request.call? = some call) (next : LiveHandle m) (cause : Refusal) (output : Bytes) :
    request.exchange? (next.answered (.wrote (.error cause) output) []) = none := by
  simp only [Request.exchange?, asked, LiveHandle.answered]

/-- A request that is no message call is no exchange. -/
theorem Request.exchange?_of_call?_none {request : Request} (silent : request.call? = none)
    (outcome : Outcome m) : request.exchange? outcome = none := by
  rw [Request.exchange?, silent]

namespace LiveHandle

variable [Monad m] [LawfulMonad m]

/-- A call that is no MAC, and whose transform goes through if the call is admitted, is an
exchange exactly then. A call that is not admitted leaves the handle as it was. -/
theorem respond_decided {handle : LiveHandle m} {request : Request} {call : MessageCall}
    (asked : request.call? = some call)
    (positive : handle.mustAlign call.input.length = true → 0 < handle.blockLength)
    (transforms : (call.direction = .encrypt && handle.mac) = false)
    (Left : LiveHandle m → Bytes → Prop)
    (given : handle.Admits call → ∃ next output,
      Gives (handle.transform call.direction call.input) (next, output) ∧
        output.length = call.input.length ∧ Left next output) :
    ∃ after reply events,
      let outcome := answered after reply events
      Yields (handle.respond request) outcome ∧
        ((request.exchange? outcome).isSome = true ↔ handle.Admits call) ∧
        ((∃ output, Left after output ∧
            request.exchange? outcome = some ⟨call.direction, call.input, output⟩) ∨
          after = handle ∧ request.exchange? outcome = none) := by
  by_cases admitted : handle.Admits call
  · obtain ⟨next, output, transformed, width, left⟩ := given admitted
    have exchanged := Request.exchange?_answered asked next width
    refine ⟨next, _, _, respond_gives asked admitted positive transforms transformed, ?_,
      Or.inl ⟨output, left, exchanged⟩⟩
    rw [exchanged]
    exact iff_of_true rfl admitted
  · obtain ⟨cause, refused⟩ := respond_refused asked admitted positive
    have silent := Request.exchange?_refused asked handle cause call.spoiled
    refine ⟨handle, _, _, refused, ?_, Or.inr ⟨rfl, silent⟩⟩
    rw [silent]
    exact iff_of_false Bool.false_ne_true admitted

end LiveHandle

/-- The exchanges of requests are that of the first, if it made one, and then those of the rest. -/
theorem exchanges_cons (request : Request) (outcome : Outcome m) (requests : List Request)
    (outcomes : List (Outcome m)) :
    exchanges (request :: requests) (outcome :: outcomes) =
      (request.exchange? outcome).toList ++ exchanges requests outcomes := by
  unfold exchanges
  rw [List.zip_cons_cons, List.filterMap_cons]
  cases request.exchange? outcome <;> rfl

namespace Handle

variable [Monad m] [LawfulMonad m]

/-- A request that is answered is followed by the requests after it. -/
theorem respondAll_cons {handle next : LiveHandle m} {last : Handle m} {request : Request}
    {requests : List Request} {reply : Reply} {events : List Event} {outcomes : List (Outcome m)}
    (first : Yields (handle.respond request) (next.answered reply events))
    (later : Yields ((live next).respondAll requests) (last, outcomes)) :
    Yields ((live handle).respondAll (request :: requests))
      (last, next.answered reply events :: outcomes) := by
  rw [respondAll]
  apply Yields.bind first
  exact Yields.bind later (Yields.pure _)

/-- What every answer to an allowed request keeps, a run of allowed requests keeps.
The property may speak of the exchanges up to now. -/
theorem run_keeps (Holds : LiveHandle m → List Exchange → Prop) (Allowed : Request → Prop)
    (Fine : Request → Outcome m → Prop)
    (step : ∀ handle finished request, Holds handle finished → Allowed request →
      ∃ next reply events,
        let outcome := LiveHandle.answered next reply events
        Yields (handle.respond request) outcome ∧ Fine request outcome ∧
          Holds next (finished ++ (request.exchange? outcome).toList))
    {requests : List Request} (allowed : ∀ request ∈ requests, Allowed request)
    {handle : LiveHandle m} {finished : List Exchange} (holds : Holds handle finished) :
    ∃ last outcomes, Yields ((live handle).respondAll requests) (live last, outcomes) ∧
      List.Forall₂ Fine requests outcomes ∧
      Holds last (finished ++ exchanges requests outcomes) := by
  induction requests generalizing handle finished with
  | nil => exact ⟨handle, [], Yields.pure _, .nil, by simpa [exchanges] using holds⟩
  | cons request rest inductionHypothesis =>
    obtain ⟨next, reply, events, answered, fine, kept⟩ :=
      step handle finished request holds (allowed request List.mem_cons_self)
    obtain ⟨last, outcomes, later, allFine, ends⟩ :=
      inductionHypothesis (fun other member => allowed other (List.mem_cons_of_mem _ member)) kept
    refine ⟨last, _, respondAll_cons answered later, .cons fine allFine, ?_⟩
    rw [exchanges_cons, ← List.append_assoc]
    exact ends

end Handle

end CipherEngine
