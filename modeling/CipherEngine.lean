import CipherEngine.Workbench
import CipherEngine.Proofs.Specimen
import CipherEngine.Proofs.Aes.Conformance
import CipherEngine.Proofs.Aes.Expansion
import CipherEngine.Proofs.Aes.Inversion
import CipherEngine.Proofs.Aes.RoundKeys
import CipherEngine.Proofs.Aes.Standard
import CipherEngine.Proofs.Aes.StandardSteps
import CipherEngine.Proofs.Aes.Steps
import CipherEngine.Proofs.Chaining.Acceleration
import CipherEngine.Proofs.Chaining.BlockChaining
import CipherEngine.Proofs.Chaining.BlockSteps
import CipherEngine.Proofs.Chaining.CarriedStream
import CipherEngine.Proofs.Chaining.CipherFeedback
import CipherEngine.Proofs.Chaining.CiphertextStream
import CipherEngine.Proofs.Chaining.Codebook
import CipherEngine.Proofs.Chaining.Contract
import CipherEngine.Proofs.Chaining.Counter
import CipherEngine.Proofs.Chaining.CounterStream
import CipherEngine.Proofs.Chaining.Digits
import CipherEngine.Proofs.Chaining.Drift
import CipherEngine.Proofs.Chaining.Indistinct
import CipherEngine.Proofs.Chaining.IteratedStream
import CipherEngine.Proofs.Chaining.Keystream
import CipherEngine.Proofs.Chaining.Lengths
import CipherEngine.Proofs.Chaining.Matching
import CipherEngine.Proofs.Chaining.OutputFeedback
import CipherEngine.Proofs.Chaining.PositionStream
import CipherEngine.Proofs.Chaining.Routines
import CipherEngine.Proofs.Chaining.Stealing
import CipherEngine.Proofs.Chaining.StealingReturn
import CipherEngine.Proofs.Chaining.Textbook
import CipherEngine.Proofs.Chaining.TextbookStealing
import CipherEngine.Proofs.Handle.Acceleration
import CipherEngine.Proofs.Handle.Agreement
import CipherEngine.Proofs.Handle.BlockChainingRun
import CipherEngine.Proofs.Handle.CarriedKeystream
import CipherEngine.Proofs.Handle.CipherFeedbackRun
import CipherEngine.Proofs.Handle.CounterRun
import CipherEngine.Proofs.Handle.Delivery
import CipherEngine.Proofs.Handle.Disclosure
import CipherEngine.Proofs.Handle.FeedbackRun
import CipherEngine.Proofs.Handle.InPlace
import CipherEngine.Proofs.Handle.InStep
import CipherEngine.Proofs.Handle.Indistinct
import CipherEngine.Proofs.Handle.MaskedRun
import CipherEngine.Proofs.Handle.MessageCall
import CipherEngine.Proofs.Handle.OutputFeedbackRun
import CipherEngine.Proofs.Handle.PositionStreamRun
import CipherEngine.Proofs.Handle.Reach
import CipherEngine.Proofs.Handle.Realignment
import CipherEngine.Proofs.Handle.RecordLife
import CipherEngine.Proofs.Handle.Records
import CipherEngine.Proofs.Handle.Refusals
import CipherEngine.Proofs.Handle.Rekeying
import CipherEngine.Proofs.Handle.Replies
import CipherEngine.Proofs.Handle.Representation
import CipherEngine.Proofs.Handle.Residue
import CipherEngine.Proofs.Handle.Resynchronisation
import CipherEngine.Proofs.Handle.RoundTrip
import CipherEngine.Proofs.Handle.Settings
import CipherEngine.Proofs.Handle.StealingSession
import CipherEngine.Proofs.Handle.Verdict
import CipherEngine.Proofs.Registry.Course
import CipherEngine.Proofs.Registry.Entries
import CipherEngine.Proofs.Registry.Ledger
import CipherEngine.Proofs.Registry.Search
import CipherEngine.Proofs.Session.Accounting
import CipherEngine.Proofs.Session.Builtins
import CipherEngine.Proofs.Session.DeclaredLengths
import CipherEngine.Proofs.Session.Disabling
import CipherEngine.Proofs.Session.Disclosure
import CipherEngine.Proofs.Session.Harm
import CipherEngine.Proofs.Session.Holdings
import CipherEngine.Proofs.Session.Identifiers
import CipherEngine.Proofs.Session.Isolation
import CipherEngine.Proofs.Session.LifeCycle
import CipherEngine.Proofs.Session.Opening
import CipherEngine.Proofs.Session.Release
import CipherEngine.Proofs.Session.Resolution
import CipherEngine.Proofs.Session.Run
import CipherEngine.Proofs.Session.Upkeep
import CipherEngine.Proofs.Storage.Alignment
import CipherEngine.Proofs.Storage.Buffers
import CipherEngine.Proofs.Storage.Copies
import CipherEngine.Proofs.Storage.Strides
import CipherEngine.Proofs.Chaining.StealingReturn
