import Mathlib.Logic.Function.Iterate
import Mathlib.Data.List.Basic

/-! The RTP backend of the audio layer (lib/uaudio-rtp.c). `rtp_play` sends the `nsamples` 16-bit
samples of a buffer as one RTP packet. On a little-endian host it first converts the buffer to
network byte order in place; it then stamps the header, returns at once when paused, and otherwise
retries `writev` while it is interrupted. A failed send counts an error (the tenth fails the
process; a sent packet halves the count) and returns 0, consuming nothing, so the caller offers the
same buffer again. Proved: on either host the payload of a packet is the big-endian encoding of the
buffer `rtp_play` was given, and on a big-endian host the buffer is never changed; but on a
little-endian host a failed send leaves the buffer converted, so the samples offered again are
converted a second time, and after an odd number of failed sends every sample goes out low byte
first. -/

namespace Disorder.Uaudio

/-- The host's byte order (`WORDS_BIGENDIAN`). -/
inductive Endian where
  | little
  | big
  deriving DecidableEq, Repr

/-- The high and the low byte of a 16-bit value. -/
def hi (v : UInt16) : UInt8 := UInt8.ofNat (v.toNat / 256)

def lo (v : UInt16) : UInt8 := UInt8.ofNat (v.toNat % 256)

/-- The two bytes in which a host keeps a `uint16_t`, lowest address first: what `writev` sends of
it. -/
def store : Endian → UInt16 → List UInt8
  | .little, v => [lo v, hi v]
  | .big, v => [hi v, lo v]

/-- The encoding the stream should carry: big-endian two's-complement PCM, high byte first,
whatever the host. -/
def bigEndian (v : UInt16) : List UInt8 := [hi v, lo v]

/-- `htons`: the byte swap on a little-endian host, the identity on a big-endian one. -/
def htons : Endian → UInt16 → UInt16
  | .little, v => UInt16.ofNat (v.toNat % 256 * 256 + v.toNat / 256)
  | .big, v => v

/-- The flags of a call that `rtp_play` reads: `UAUDIO_RESUME` and `UAUDIO_PAUSED`. -/
structure Flags where
  resume : Bool
  paused : Bool
  deriving DecidableEq, Repr

/-- `EINTR`. -/
def EINTR : Nat := 4

/-- What one `writev` call did: wrote a number of bytes, or failed with an `errno`. -/
inductive Writev where
  | wrote (n : Nat)
  | failed (errno : Nat)
  deriving DecidableEq, Repr

/-- How the `writev` loop of a call ended: `do ... while(written_bytes < 0 && errno == EINTR)`
retries interrupted calls, which send nothing, so it ends with the first call that was not
interrupted. -/
structure WritevRun where
  result : Writev
  not_eintr : result ≠ .failed EINTR

/-- The backend's state: `rtp_sequence`, `rtp_errors`, `rtp_payload`, `rtp_id` and `rtp_base`. -/
structure Rtp where
  sequence : UInt16
  errors : Nat
  payload : UInt8
  id : UInt32
  base : UInt32
  deriving DecidableEq, Repr

/-- A packet sent: the header fields (`vpxcc`, `mpt`, `seq`, `timestamp`, `ssrc`) as values, and
the payload as the bytes of the buffer. -/
structure Packet where
  vpxcc : UInt8
  mpt : UInt8
  seq : UInt16
  timestamp : UInt32
  ssrc : UInt32
  payload : List UInt8
  deriving DecidableEq, Repr

/-- What a call leaves: its return value, the backend's state, the caller's buffer, and the packet
it sent, if any. -/
structure Played where
  returned : Nat
  rtp : Rtp
  buffer : List UInt16
  packet : Option Packet
  deriving DecidableEq, Repr

/-- `rtp_play` on a buffer of `nsamples = buffer.length` samples, with `sync` the value of
`uaudio_schedule_sync()` and `w` how its `writev` loop ended. `fatal` is an error. -/
def rtpPlay (host : Endian) (s : Rtp) (buffer : List UInt16) (flags : Flags) (sync : UInt32)
    (w : WritevRun) : Except String Played :=
  let header : Packet := ⟨(2 : UInt8) <<< 6, if flags.resume then s.payload ||| 0x80 else s.payload,
    s.sequence, s.base + sync, s.id, []⟩
  let s := { s with sequence := s.sequence + 1 }
  let buffer := if host = .little then buffer.map (htons host) else buffer
  let packet := { header with payload := buffer.flatMap (store host) }
  if flags.paused then .ok ⟨buffer.length, s, buffer, none⟩ else
  match w.result with
  | .failed _ =>
    let s := { s with errors := s.errors + 1 }
    if s.errors = 10 then .error "too many audio tranmission errors" else
    .ok ⟨0, s, buffer, none⟩
  | .wrote _ => .ok ⟨buffer.length, { s with errors := s.errors / 2 }, buffer, some packet⟩

/-- One call of `rtp_play` by the audio thread: the schedule's clock and the `writev` loop. -/
structure Attempt where
  sync : UInt32
  writev : WritevRun

/-- Modelled from the spec (the audio thread of uaudio-thread.c is not in this source): the thread
offers a buffer and, while the backend consumes none of it, offers the same buffer again; the
packets sent, in order. -/
def offer (host : Endian) (flags : Flags) : Rtp → List UInt16 → List Attempt →
    Except String (Rtp × List UInt16 × List Packet)
  | s, buffer, [] => .ok (s, buffer, [])
  | s, buffer, a :: as => do
    let p ← rtpPlay host s buffer flags a.sync a.writev
    if p.returned = 0 then
      let (s', buffer', ps) ← offer host flags p.rtp p.buffer as
      return (s', buffer', p.packet.toList ++ ps)
    else return (p.rtp, p.buffer, p.packet.toList)

/-! ### Byte order -/

section Bytes

theorem toNat_htons_little (v : UInt16) :
    (htons .little v).toNat = v.toNat % 256 * 256 + v.toNat / 256 := by
  have := v.toNat_lt_size
  exact UInt16.toNat_ofNat_of_lt (by unfold UInt16.size at this ⊢; omega)

@[simp] theorem hi_htons_little (v : UInt16) : hi (htons .little v) = lo v := by
  have := v.toNat_lt_size
  unfold hi lo; rw [toNat_htons_little]; congr 1; unfold UInt16.size at this; omega

@[simp] theorem lo_htons_little (v : UInt16) : lo (htons .little v) = hi v := by
  have := v.toNat_lt_size
  unfold hi lo; rw [toNat_htons_little]; congr 1; unfold UInt16.size at this; omega

/-- Whatever the host, the bytes of `htons v` in memory are the big-endian encoding of `v`. -/
@[simp] theorem store_htons (host : Endian) (v : UInt16) : store host (htons host v) = bigEndian v := by
  cases host
  · simp only [store, bigEndian, hi_htons_little, lo_htons_little]
  · rfl

/-- The swap of a little-endian host is its own inverse. -/
@[simp] theorem htons_htons_little (v : UInt16) : htons .little (htons .little v) = v := by
  have := v.toNat_lt_size
  apply UInt16.toNat.inj
  rw [toNat_htons_little, toNat_htons_little]; unfold UInt16.size at this; omega

theorem bigEndian_htons_little (v : UInt16) : bigEndian (htons .little v) = store .little v := by
  simp [bigEndian, store]

/-- Sending a sample low byte first is sending it right exactly when its two bytes are equal. -/
theorem store_little_eq_bigEndian (v : UInt16) : store .little v = bigEndian v ↔ hi v = lo v := by
  simp only [store, bigEndian, List.cons.injEq, and_true]
  exact ⟨fun h => h.1.symm, fun h => ⟨h.symm, h⟩⟩

end Bytes

/-! ### One call -/

section Play

variable {host : Endian} {s : Rtp} {buffer : List UInt16} {flags : Flags} {sync : UInt32}
  {w : WritevRun} {p : Played}

theorem convert_eq (host : Endian) (buffer : List UInt16) :
    (if host = .little then buffer.map (htons host) else buffer) = buffer.map (htons host) := by
  cases host
  · rfl
  · exact (List.map_id buffer).symm

/-- Whatever a call does, it leaves the caller's buffer converted to network order (changed on a
little-endian host, untouched on a big-endian one), and a packet it sends carries the big-endian
encoding of the buffer it was given. -/
theorem rtpPlay_ok (h : rtpPlay host s buffer flags sync w = .ok p) :
    p.buffer = buffer.map (htons host) ∧ ∀ pk ∈ p.packet, pk.payload = buffer.flatMap bigEndian := by
  unfold rtpPlay at h
  dsimp only at h
  rw [convert_eq] at h
  cases hp : flags.paused
  · cases hw : w.result with
    | failed e =>
      simp only [hp, hw, Bool.false_eq_true, if_false] at h
      split_ifs at h
      cases h; exact ⟨rfl, by simp⟩
    | wrote n =>
      simp only [hp, hw, Bool.false_eq_true, if_false] at h
      cases h; exact ⟨rfl, fun pk h => by cases h; simp [List.flatMap_map]⟩
  · simp only [hp, if_true] at h
    cases h; exact ⟨rfl, by simp⟩

/-- A failed send, below the tenth error, consumes nothing and sends nothing. -/
theorem rtpPlay_failed (hp : flags.paused = false) {e : Nat} (hw : w.result = .failed e)
    (he : s.errors + 1 < 10) :
    rtpPlay host s buffer flags sync w =
      .ok ⟨0, { s with sequence := s.sequence + 1, errors := s.errors + 1 }, buffer.map (htons host), none⟩ := by
  simp only [rtpPlay, convert_eq, hp, hw, if_false, Bool.false_eq_true]
  rw [if_neg (by omega)]

/-- A sent packet: the whole buffer is consumed. -/
theorem rtpPlay_wrote (hp : flags.paused = false) {n : Nat} (hw : w.result = .wrote n) :
    ∃ pk, rtpPlay host s buffer flags sync w =
      .ok ⟨buffer.length, { s with sequence := s.sequence + 1, errors := s.errors / 2 },
        buffer.map (htons host), some pk⟩ ∧ pk.payload = buffer.flatMap bigEndian := by
  refine ⟨⟨(2 : UInt8) <<< 6, if flags.resume then s.payload ||| 0x80 else s.payload, s.sequence,
    s.base + sync, s.id, (buffer.map (htons host)).flatMap (store host)⟩, ?_, by simp [List.flatMap_map]⟩
  simp only [rtpPlay, convert_eq, hp, hw, Bool.false_eq_true, if_false, List.length_map]

end Play

/-! ### Offering the samples again -/

section Offer

variable {flags : Flags}

/-- On a little-endian host, a run of failed sends followed by one that goes through: each failure
leaves the buffer swapped once more, and the one packet sent carries the big-endian encoding of the
caller's samples only after an even number of failures; after an odd number every sample goes out
low byte first. -/
theorem reoffer_sends_swapped (hp : flags.paused = false) (buffer : List UInt16) :
    ∀ (fails : List Attempt) (s : Rtp), (∀ a ∈ fails, ∃ e, a.writev.result = .failed e) →
      s.errors + fails.length < 10 → ∀ (last : Attempt) (n : Nat), last.writev.result = .wrote n →
      ∃ s' pk, offer .little flags s buffer (fails ++ [last]) =
          .ok (s', buffer.map (htons .little)^[fails.length + 1], [pk]) ∧
        pk.payload = buffer.flatMap (if fails.length % 2 = 0 then bigEndian else store .little)
  | [], s, _, _, last, n, hl => by
    obtain ⟨pk, h, hpk⟩ := @rtpPlay_wrote .little s buffer flags last.sync last.writev hp n hl
    refine ⟨{ s with sequence := s.sequence + 1, errors := s.errors / 2 }, pk, ?_, by simpa using hpk⟩
    by_cases h0 : buffer.length = 0 <;> simp [offer, h, h0, bind, Except.bind, pure, Except.pure]
  | a :: fails, s, hf, he, last, n, hl => by
    obtain ⟨e, hae⟩ := hf a (List.mem_cons_self _ _)
    obtain ⟨s', pk, h, hpk⟩ := reoffer_sends_swapped hp (buffer.map (htons .little)) fails
      { s with sequence := s.sequence + 1, errors := s.errors + 1 }
      (fun b hb => hf b (List.mem_cons_of_mem _ hb)) (by simp at he ⊢; omega) last n hl
    refine ⟨s', pk, ?_, ?_⟩
    · rw [List.cons_append, offer, rtpPlay_failed hp hae (by simp at he; omega)]
      simp only [bind, Except.bind, ↓reduceIte, h, pure, Except.pure, Option.toList, List.nil_append,
        List.length_cons]
      rw [List.map_map, ← Function.iterate_succ]
    · rw [hpk, List.flatMap_map, List.length_cons]
      congr 1; funext v
      split_ifs with h₁ h₂ h₂ <;> first | omega | simp [bigEndian_htons_little, store, bigEndian]

/-- The sample `0x0102` after one failed send: it goes out as `02 01` where `01 02` was due. -/
theorem reoffer_sends_swapped_once :
    ∃ s' pk, offer .little ⟨false, false⟩ ⟨0, 0, 10, 0, 0⟩ [258]
        ([⟨0, ⟨.failed 111, by decide⟩⟩] ++ [⟨160, ⟨.wrote 14, by decide⟩⟩]) =
          .ok (s', [258].map (htons .little)^[1 + 1], [pk]) ∧
        pk.payload = [258].flatMap (if 1 % 2 = 0 then bigEndian else store .little) ∧
        pk.payload = [2, 1] ∧ [258].flatMap bigEndian = [1, 2] :=
  Exists.imp (fun _ => Exists.imp fun _ (h : _ ∧ _) => ⟨h.1, h.2, h.2.trans (by decide), by decide⟩)
    (reoffer_sends_swapped rfl [258] [⟨0, ⟨.failed 111, by decide⟩⟩] ⟨0, 0, 10, 0, 0⟩
      (fun _ h => ⟨111, by simp at h; rw [h]⟩) (by decide) ⟨160, ⟨.wrote 14, by decide⟩⟩ 14 rfl)

end Offer

end Disorder.Uaudio
