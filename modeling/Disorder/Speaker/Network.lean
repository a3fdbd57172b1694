import Mathlib.Data.List.Chain

/-! The network backend of the speaker (server/speaker-network.c): `network_play` sends up to one
RTP packet of audio per call. After the speaker has been idle it first moves its sample counter
`rtp_time` up to what the wall clock says has elapsed since `rtp_time_0`, never down; each packet
then carries `rtp_time`, and a packet that `writev` took advances `rtp_time` by the samples it
carried. Over every sequence of calls, with any idle flags, clock readings, requested frame counts
and `writev` outcomes, and as long as `rtp_time` stays below `2^64`, the counter never goes back,
every payload is a whole number of frames that fits in one packet, and the sample ranges of the
packets sent follow one another without overlapping. A clock reading so far from `rtp_time_0` that
the assertion on it fails, and a tenth consecutive failed send, end the speaker. -/

namespace Disorder.Speaker

/-- The sample format `network_init` sets, and so that of every track the backend plays, as it
plays one fixed format: 44100 Hz, two channels of 16 bits. -/
def rate : Nat := 44100
def channels : Nat := 2
def bits : Nat := 16

/-- `device_bpf`, the bytes of one frame of that format. Modelled from the spec (the speaker that
sets it is not in this source): a sample of each channel. -/
def bpf : Nat := channels * (bits / 8)

/-- `NETWORK_BYTES`, and `sizeof (struct rtp_header)`. -/
def NETWORK_BYTES : Nat := 1500 - 8 - 40 - 8
def headerBytes : Nat := 12

/-- The backend's state: `rtp_time` (`uint64_t`), `rtp_time_0` in microseconds, `rtp_seq`
(`uint16_t`), the speaker's `idled` flag and `audio_errors`. -/
structure Network where
  rtpTime : Nat
  time0 : Nat
  seq : Nat
  idled : Bool
  audioErrors : Nat
  deriving DecidableEq, Repr

/-- One call of `network_play`: whether the speaker has idled since the last call, the clock
reading in microseconds, the frames requested, and whether `writev` wrote the packet (a datagram
is written whole or not at all). -/
structure PlayCall where
  idle : Bool
  now : Nat
  frames : Nat
  ok : Bool
  deriving DecidableEq, Repr

/-- A packet sent: its sequence number, the 64-bit `rtp_time` whose low 32 bits are its header's
timestamp, its marker bit, and the bytes of its payload. -/
structure Packet where
  seq : Nat
  time : Nat
  marker : Bool
  bytes : Nat
  deriving DecidableEq, Repr

namespace Packet

/-- The header's 32-bit timestamp. -/
def timestamp (p : Packet) : Nat := p.time % UInt32.size

/-- Frames in the payload. -/
def frames (p : Packet) : Nat := p.bytes / bpf

/-- The `rtp_time` after the packet: its timestamp plus its samples. -/
def next (p : Packet) : Nat := p.time + p.frames * channels

end Packet

namespace Network

/-- The idle fix-up: the samples that the time since `rtp_time_0` is worth (`tvsub_us`, asserted
small enough not to overflow), rounded down to a whole stereo frame, replace `rtp_time` if they are
more. Without an idle, `rtp_time` is kept. -/
def retime (s : Network) (idled : Bool) (now : Nat) : Option Nat :=
  if !idled then some s.rtpTime else
  let delta := (((now : Int) - s.time0) % UInt64.size).toNat
  if delta > (UInt64.size - 1) / 88200 then none else
  let target := delta * rate % UInt64.size * channels % UInt64.size / 1000000
  let target := target - target % 2
  some (if target > s.rtpTime then target else s.rtpTime)

/-- The payload for `frames` frames (a `size_t` product), cut to what fits after the header and
rounded down to whole frames. -/
def payload (frames : Nat) : Nat :=
  let bytes := frames * bpf % UInt64.size
  if bytes > NETWORK_BYTES - headerBytes then
    (NETWORK_BYTES - headerBytes) - (NETWORK_BYTES - headerBytes) % bpf
  else bytes

/-- `network_play`: the idle fix-up, then one packet. A failed `writev` counts an audio error and
sends nothing, the tenth in a row ending the speaker; a packet written advances `rtp_time` by its
samples. `none` is the speaker ending. -/
def play (s : Network) (c : PlayCall) : Option (Network × Option Packet) :=
  let idled := s.idled || c.idle
  (s.retime idled c.now).bind fun t =>
  let bytes := payload c.frames
  let p : Packet := ⟨s.seq, t, idled, bytes⟩
  let s := { s with rtpTime := t, seq := (s.seq + 1) % UInt16.size, idled := false }
  if !c.ok then
    if s.audioErrors + 1 = 10 then none else some ({ s with audioErrors := s.audioErrors + 1 }, none)
  else some ({ s with audioErrors := s.audioErrors / 2, rtpTime := p.next % UInt64.size }, some p)

/-- A sequence of calls, and the packets sent, until the speaker ends. -/
def run (s : Network) : List PlayCall → Network × List Packet
  | [] => (s, [])
  | c :: cs =>
    match s.play c with
    | none => (s, [])
    | some (s', p) => ((s'.run cs).1, p.toList ++ (s'.run cs).2)

/-! ### One call -/

theorem retime_ge {s : Network} {idled : Bool} {now t : Nat} (h : s.retime idled now = some t) :
    s.rtpTime ≤ t := by
  simp only [retime] at h
  split_ifs at h <;> obtain rfl := Option.some.inj h <;> omega

/-- Every payload is whole frames and fits in one packet. -/
theorem payload_whole (frames : Nat) : payload frames % bpf = 0 ∧ payload frames ≤ NETWORK_BYTES - headerBytes := by
  simp only [payload, bpf, channels, bits, NETWORK_BYTES, headerBytes, UInt64.size]
  split_ifs <;> omega

/-- What one call does to `rtp_time`: it never goes back before the packet, the packet carries it,
and a packet sent moves it to the packet's end. -/
theorem play_spec {s s' : Network} {c : PlayCall} {p : Option Packet} (h : s.play c = some (s', p)) :
    (p = none → s.rtpTime ≤ s'.rtpTime) ∧
    ∀ P, p = some P → s.rtpTime ≤ P.time ∧ P.bytes % bpf = 0 ∧ P.bytes ≤ NETWORK_BYTES - headerBytes ∧
      s'.rtpTime = P.next % UInt64.size := by
  simp only [play, Option.bind_eq_some] at h
  obtain ⟨t, ht, h⟩ := h
  have hge := retime_ge ht
  split_ifs at h <;> cases h
  · exact ⟨fun _ => hge, fun _ h => (nomatch h)⟩
  · exact ⟨fun h => (nomatch h), fun P h => by cases h; exact ⟨hge, payload_whole _ |>.1, payload_whole _ |>.2, rfl⟩⟩

/-! ### A whole run -/

/-- Over a run whose packets all end below `2^64`: `rtp_time` only grows, every packet starts at or
after the `rtp_time` the run started from and ends at or before the one it reached, and each packet
starts at or after the end of the one before. -/
theorem run_spec (s : Network) (cs : List PlayCall)
    (hbelow : ∀ P ∈ (s.run cs).2, P.next < UInt64.size) :
    s.rtpTime ≤ (s.run cs).1.rtpTime ∧
    (∀ P ∈ (s.run cs).2, s.rtpTime ≤ P.time ∧ P.next ≤ (s.run cs).1.rtpTime) ∧
    (s.run cs).2.Chain' (fun P Q => P.next ≤ Q.time) := by
  induction cs generalizing s with
  | nil => exact ⟨le_rfl, fun _ h => (nomatch h), List.chain'_nil⟩
  | cons c cs ih =>
    rcases hp : s.play c with _ | ⟨s', p⟩
    · simp only [run, hp]; exact ⟨le_rfl, fun _ h => (nomatch h), List.chain'_nil⟩
    simp only [run, hp] at hbelow ⊢
    obtain ⟨ih₁, ih₂, ih₃⟩ := ih s' fun P hP => hbelow P (List.mem_append_right _ hP)
    obtain ⟨hnone, hsome⟩ := play_spec hp
    cases p with
    | none =>
      have := hnone rfl
      exact ⟨this.trans ih₁, fun P hP => ⟨this.trans (ih₂ P hP).1, (ih₂ P hP).2⟩, ih₃⟩
    | some P =>
      obtain ⟨ht, -, -, hs'⟩ := hsome P rfl
      have hP := hbelow P (by simp)
      rw [Nat.mod_eq_of_lt hP] at hs'
      have hle : P.time ≤ P.next := Nat.le_add_right _ _
      refine ⟨ht.trans (hle.trans (hs' ▸ ih₁)), ?_, ?_⟩
      · rintro Q (_ | ⟨_, hQ⟩)
        · exact ⟨ht, hs' ▸ ih₁⟩
        · exact ⟨ht.trans (hle.trans (hs' ▸ (ih₂ Q hQ).1)), (ih₂ Q hQ).2⟩
      · exact List.chain'_cons'.2 ⟨fun Q hQ => hs' ▸ (ih₂ Q (List.mem_of_mem_head? hQ)).1, ih₃⟩

/-- Every packet of every run is a whole number of frames that fits in one packet. -/
theorem run_payload (s : Network) (cs : List PlayCall) :
    ∀ P ∈ (s.run cs).2, P.bytes % bpf = 0 ∧ P.bytes ≤ NETWORK_BYTES - headerBytes := by
  induction cs generalizing s with
  | nil => exact fun _ h => nomatch h
  | cons c cs ih =>
    rcases hp : s.play c with _ | ⟨s', p⟩
    · simp only [run, hp]; exact fun _ h => nomatch h
    simp only [run, hp, List.mem_append]
    rintro P (hP | hP)
    · obtain ⟨-, hw, hl, -⟩ := (play_spec hp).2 P (Option.mem_toList.1 hP)
      exact ⟨hw, hl⟩
    · exact ih s' P hP

/-- For every sequence of `network_play` calls, as long as `rtp_time` stays below `2^64` (every
packet sent ends below it): `rtp_time` never decreases; every payload is a whole number of frames
and at most `NETWORK_BYTES` less the header; and each packet's timestamp is at least the one before
plus that packet's samples. -/
theorem network_play_monotone (s : Network) (cs : List PlayCall)
    (hbelow : ∀ P ∈ (s.run cs).2, P.next < UInt64.size) :
    s.rtpTime ≤ (s.run cs).1.rtpTime ∧
    (∀ P ∈ (s.run cs).2, P.bytes % bpf = 0 ∧ P.bytes ≤ NETWORK_BYTES - headerBytes) ∧
    (s.run cs).2.Chain' (fun P Q => P.time + P.frames * channels ≤ Q.time) :=
  have h := run_spec s cs hbelow
  ⟨h.1, run_payload s cs, h.2.2⟩

/-- After an idle of one second, two calls for 400 frames, each sent as 358, and a failed send. -/
theorem network_play_monotone_second :
    let s : Network := ⟨0, 0, 0, false, 0⟩
    let cs : List PlayCall := [⟨true, 1000000, 400, true⟩, ⟨false, 0, 400, true⟩, ⟨false, 0, 1, false⟩]
    (s.run cs).2.map Packet.time = [88200, 88916] ∧
    (s.rtpTime ≤ (s.run cs).1.rtpTime ∧
    (∀ P ∈ (s.run cs).2, P.bytes % bpf = 0 ∧ P.bytes ≤ NETWORK_BYTES - headerBytes) ∧
    (s.run cs).2.Chain' (fun P Q => P.time + P.frames * channels ≤ Q.time)) :=
  ⟨by decide, network_play_monotone _ _ (by decide)⟩

end Network

end Disorder.Speaker
