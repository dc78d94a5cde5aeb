import Lrc20.Lib.Stream
import Lrc20.Messages.P2p

open ByteOrder Codec Codec.Decoder Codec.Written

namespace Lrc20

open RawNetworkMessage

/-- `Decoder` of the P2P client: the bytes that were put in and not yet parsed. -/
structure StreamDecoder where
  unparsed : Bytes
deriving DecidableEq

namespace StreamDecoder

def new : StreamDecoder := ⟨[]⟩

variable (formats : WireFormats)

/-- `deserialize_partial`: a message, and how many bytes it took. -/
def deserializePartial (bytes : Bytes) : Except Failure (RawNetworkMessage × Nat) :=
  match decodeFinite formats bytes with
  | .ok (message, rest) => .ok (message, bytes.length - rest.length)
  | .error failure => .error failure

/-- Any end of the input is taken for a message that has not arrived in full. -/
def decodeNext (decoder : StreamDecoder) :
    Except Failure (Option RawNetworkMessage) × StreamDecoder :=
  match deserializePartial formats decoder.unparsed with
  | .ok (message, index) => (.ok (some message), ⟨decoder.unparsed.drop index⟩)
  | .error .unexpectedEof => (.ok none, decoder)
  | .error failure => (.error failure, decoder)

/-- `decode_next` on the bytes that a decoder holds. -/
def nextOf (unparsed : Bytes) : Except Failure (Option RawNetworkMessage) × Bytes :=
  ((decodeNext formats ⟨unparsed⟩).1, (decodeNext formats ⟨unparsed⟩).2.unparsed)

/-- A new decoder to whose bytes `input` adds each chunk, with `decode_next` called after each until
it returns no message: the messages up to the first error, and the error. -/
def decodeChunks (chunks : List Bytes) : List RawNetworkMessage × Option Failure :=
  Stream.feed (nextOf formats) new.unparsed chunks

end StreamDecoder

section Decoding

variable {formats : WireFormats} {prims : Primitives}

theorem stable_decodeChecked (prims : Primitives) : Stable (decodeChecked prims) := by
  refine (stable_number 4).bind fun length => (stable_readExact 4).bind fun checksum =>
    (stable_readExact length).bind fun data => ?_
  split
  · exact stable_pure data
  · exact stable_fail .invalidChecksum

theorem stable_decodeFinite : Stable (decodeFinite formats) := by
  refine (stable_array 4).bind fun magic => (stable_readExact 12).bind fun command =>
    (stable_orFail _ _).bind fun cmd => ?_
  exact ((stable_decodeChecked formats.toPrimitives).limited maxVecSize).bind fun raw =>
    (stable_ofExcept _).bind fun payload => stable_pure _

theorem decodeFinite_shorter {buffer rest : Bytes} {message : RawNetworkMessage}
    (done : decodeFinite formats buffer = .ok (message, rest)) : rest.length < buffer.length := by
  obtain ⟨front, rfl, reads⟩ := stable_decodeFinite.front _ _ _ done
  obtain ⟨magic, left, read, _⟩ := bind_eq_ok.mp (reads [])
  have four : 4 + left.length ≤ (front ++ []).length := consumes_array 4 _ _ _ read
  simp only [List.length_append, List.length_nil] at four ⊢
  omega

section Next

variable {buffer rest : Bytes} {message : RawNetworkMessage}

theorem nextOf_of_ok (done : decodeFinite formats buffer = .ok (message, rest)) :
    StreamDecoder.nextOf formats buffer = (.ok (some message), rest) := by
  simp only [StreamDecoder.nextOf, StreamDecoder.decodeNext, StreamDecoder.deserializePartial, done,
    stable_decodeFinite.drop_eq done]

theorem nextOf_of_eof (failed : decodeFinite formats buffer = .error .unexpectedEof) :
    StreamDecoder.nextOf formats buffer = (.ok none, buffer) := by
  simp only [StreamDecoder.nextOf, StreamDecoder.decodeNext, StreamDecoder.deserializePartial, failed]

theorem nextOf_of_error {failure : Failure} (failed : decodeFinite formats buffer = .error failure)
    (final : failure ≠ .unexpectedEof) :
    StreamDecoder.nextOf formats buffer = (.error failure, buffer) := by
  simp only [StreamDecoder.nextOf, StreamDecoder.decodeNext, StreamDecoder.deserializePartial, failed]

/-- A call gives a message, waits for more bytes or gives an error. -/
theorem nextOf_cases (formats : WireFormats) (buffer : Bytes) :
    (∃ message rest, decodeFinite formats buffer = .ok (message, rest) ∧
      StreamDecoder.nextOf formats buffer = (.ok (some message), rest)) ∨
    (decodeFinite formats buffer = .error .unexpectedEof ∧
      StreamDecoder.nextOf formats buffer = (.ok none, buffer)) ∨
    ∃ failure, failure ≠ .unexpectedEof ∧ decodeFinite formats buffer = .error failure ∧
      StreamDecoder.nextOf formats buffer = (.error failure, buffer) := by
  cases decoded : decodeFinite formats buffer with
  | ok read => exact .inl ⟨read.1, read.2, rfl, nextOf_of_ok decoded⟩
  | error failure =>
    by_cases final : failure = .unexpectedEof
    · subst final
      exact .inr (.inl ⟨rfl, nextOf_of_eof decoded⟩)
    · exact .inr (.inr ⟨failure, final, rfl, nextOf_of_error decoded final⟩)

theorem RawNetworkMessage.Transmissible.reads (lawful : formats.Lawful)
    (wellFormed : message.payload.WellFormed formats)
    (transmissible : message.Transmissible formats) :
    Reads (decodeFinite formats) (message.consensusEncode formats).bytes message := by
  obtain ⟨short, canonical⟩ := transmissible
  have payload := (NetworkMessage.decodePayload_iff lawful.noTransaction wellFormed
    (by omega)).mpr canonical
  refine (tracks_body lawful).reads_iff.mpr fun rest => ?_
  unfold decodeBody
  rw [bind_of_ok (reads_decodeCheckedData short rest), payload]
  rfl

theorem incremental_nextOf : Stream.Incremental (StreamDecoder.nextOf formats) where
  progress buffer message rest given := by
    rcases nextOf_cases formats buffer with ⟨_, _, done, next⟩ | ⟨_, next⟩ | ⟨_, _, _, next⟩ <;>
      cases next.symm.trans given
    exact decodeFinite_shorter done
  value buffer message rest more given := by
    rcases nextOf_cases formats buffer with ⟨_, _, done, next⟩ | ⟨_, next⟩ | ⟨_, _, _, next⟩ <;>
      cases next.symm.trans given
    exact nextOf_of_ok (stable_decodeFinite.ok more done)
  error buffer failure rest more given := by
    rcases nextOf_cases formats buffer with ⟨_, _, _, next⟩ | ⟨_, next⟩ | ⟨_, final, failed, next⟩ <;>
      cases next.symm.trans given
    rw [nextOf_of_error (stable_decodeFinite.error _ _ more failed final) final]
  waits buffer rest given := by
    rcases nextOf_cases formats buffer with ⟨_, _, _, next⟩ | ⟨_, next⟩ | ⟨_, _, _, next⟩ <;>
      cases next.symm.trans given
    rfl
  empty := nextOf_of_eof rfl

end Next

end Decoding

/-- Messages that come through one by one come through on a stream in their order, however it is
split into chunks, and the bytes after them are decoded as a stream of their own. -/
theorem decodeChunks_of_messages (formats : WireFormats) (lawful : formats.Lawful)
    (messages : List RawNetworkMessage) (tail : Bytes) (chunks : List Bytes)
    (sound : ∀ message ∈ messages,
      message.payload.WellFormed formats ∧ message.Transmissible formats)
    (stream : chunks.flatten =
      messages.flatMap (fun message => (message.consensusEncode formats).bytes) ++ tail) :
    StreamDecoder.decodeChunks formats chunks =
      (messages ++ (StreamDecoder.decodeChunks formats [tail]).1,
        (StreamDecoder.decodeChunks formats [tail]).2) := by
  refine Stream.feed_written incremental_nextOf (fun message mem more => ?_) stream
  obtain ⟨wellFormed, transmissible⟩ := sound message mem
  exact nextOf_of_ok (transmissible.reads lawful wellFormed more)

/-- A ping and a pong that arrive byte by byte. -/
theorem decodeChunks_bytes_of_ping_and_pong :
    let messages : List RawNetworkMessage :=
      [⟨.replicate 4 1, .ping 7⟩, ⟨.replicate 4 1, .pong 8⟩]
    StreamDecoder.decodeChunks .plain ((messages.flatMap fun message =>
      (message.consensusEncode .plain).bytes).map ([·])) = (messages, none) := by
  intro messages
  have sound : ∀ message ∈ messages,
      message.payload.WellFormed .plain ∧ message.Transmissible .plain := by
    intro message mem
    rcases List.mem_pair.mp mem with rfl | rfl <;> exact ⟨trivial, by decide +kernel, trivial⟩
  exact decodeChunks_of_messages .plain plain_lawful messages [] _ sound
    (by simp [← List.flatMap_def, List.flatMap_singleton'])

end Lrc20
