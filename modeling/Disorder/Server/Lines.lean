import Disorder.Server.Session

/-! How a connection's bytes become lines. The server's `reader_callback` finds each newline in
what the event reader has buffered, consumes the line with its newline and hands the line (as a C
string) to the connection's line reader; bytes after the last newline stay buffered for the next
read, and at end of file they are dropped. Proved: with line readers that complete, the lines handed
over are the stream's newline-terminated lines, in order, each once, whatever the sizes of the reads
and whatever `buffer_space` does to the buffer between them; and a body the client sends with
`disorder__body` reaches `body_line` as exactly the client's lines, after which the next line goes to
`command` again. -/

namespace Disorder.Server

open Disorder.Event

/-! ### A byte stream as lines -/

/-- The bytes of lines, each followed by a newline, and then `rest`. -/
def encodeLines (ls : List (List UInt8)) (rest : List UInt8) : List UInt8 :=
  (ls.map (· ++ [10])).flatten ++ rest

/-- The newline-terminated lines of a byte stream and the bytes after its last newline. -/
def splitLines : List UInt8 → List (List UInt8) × List UInt8
  | [] => ([], [])
  | b :: bs =>
    let p := splitLines bs
    if b = 10 then ([] :: p.1, p.2) else
    match p.1 with
    | [] => ([], b :: p.2)
    | l :: ls => ((b :: l) :: ls, p.2)

@[simp] theorem encodeLines_nil (rest : List UInt8) : encodeLines [] rest = rest := rfl

@[simp] theorem encodeLines_cons (l : List UInt8) (ls : List (List UInt8)) (rest : List UInt8) :
    encodeLines (l :: ls) rest = l ++ 10 :: encodeLines ls rest := by
  simp [encodeLines]

theorem encodeLines_append (ls₁ ls₂ : List (List UInt8)) (rest : List UInt8) :
    encodeLines (ls₁ ++ ls₂) rest = encodeLines ls₁ (encodeLines ls₂ rest) := by
  simp [encodeLines]

theorem encodeLines_nil_append (ls : List (List UInt8)) (rest : List UInt8) :
    encodeLines ls [] ++ rest = encodeLines ls rest := by
  simp [encodeLines]

/-- Splitting loses nothing. -/
theorem encodeLines_splitLines (s : List UInt8) :
    encodeLines (splitLines s).1 (splitLines s).2 = s := by
  induction s with
  | nil => rfl
  | cons b bs ih =>
    simp only [splitLines]
    split_ifs with hb
    · simp [hb, ih]
    · split <;> rename_i h <;> simp only [h] at ih <;> dsimp only
      · rw [encodeLines_nil] at ih ⊢; rw [ih]
      · rw [encodeLines_cons] at ih ⊢; exact congrArg (b :: ·) ih

/-- The lines and the rest hold no newline. -/
theorem splitLines_noline (s : List UInt8) :
    (∀ l ∈ (splitLines s).1, 10 ∉ l) ∧ 10 ∉ (splitLines s).2 := by
  induction s with
  | nil => simp [splitLines]
  | cons b bs ih =>
    simp only [splitLines]
    split_ifs with hb
    · simpa using ih
    · split <;> rename_i h <;> simp only [h] at ih
      · simpa [Ne.symm hb] using ih.2
      · simpa [Ne.symm hb] using ih

theorem splitLines_line_append {l : List UInt8} (hl : 10 ∉ l) (s : List UInt8) :
    splitLines (l ++ 10 :: s) = (l :: (splitLines s).1, (splitLines s).2) := by
  induction l with
  | nil => simp [splitLines]
  | cons b l ih =>
    have hb : b ≠ 10 := fun h => hl (h ▸ List.mem_cons_self _ _)
    simp [splitLines, ih (fun h => hl (List.mem_cons_of_mem _ h)), hb]

theorem splitLines_noline_eq {s : List UInt8} (hs : 10 ∉ s) : splitLines s = ([], s) := by
  induction s with
  | nil => rfl
  | cons b s ih =>
    have hb : b ≠ 10 := fun h => hs (h ▸ List.mem_cons_self _ _)
    simp [splitLines, ih (fun h => hs (List.mem_cons_of_mem _ h)), hb]

/-- The lines of an encoded stream are the lines encoded. -/
theorem splitLines_encodeLines {ls : List (List UInt8)} {rest : List UInt8}
    (hls : ∀ l ∈ ls, 10 ∉ l) (hrest : 10 ∉ rest) : splitLines (encodeLines ls rest) = (ls, rest) := by
  induction ls with
  | nil => exact splitLines_noline_eq hrest
  | cons l ls ih =>
    rw [encodeLines_cons, splitLines_line_append (hls l (List.mem_cons_self _ _)),
      ih (fun l' h => hls l' (List.mem_cons_of_mem _ h))]

/-- Splitting a stream that is read in two parts: the lines of the first part, then the lines of
what was left of it followed by the second part. -/
theorem splitLines_append (p c : List UInt8) :
    splitLines (p ++ c) = ((splitLines p).1 ++ (splitLines ((splitLines p).2 ++ c)).1,
      (splitLines ((splitLines p).2 ++ c)).2) := by
  obtain ⟨h₁, -⟩ := splitLines_noline p
  obtain ⟨h₂, h₃⟩ := splitLines_noline ((splitLines p).2 ++ c)
  conv_lhs => rw [← encodeLines_splitLines p, ← encodeLines_nil_append, List.append_assoc,
    ← encodeLines_splitLines ((splitLines p).2 ++ c), encodeLines_nil_append, ← encodeLines_append]
  exact splitLines_encodeLines (fun l hl => (List.mem_append.mp hl).elim (h₁ l) (h₂ l)) h₃

theorem mem_encodeLines_of_mem {ls : List (List UInt8)} {l : List UInt8} (hl : l ∈ ls) {x : UInt8}
    (hx : x ∈ l) (rest : List UInt8) : x ∈ encodeLines ls rest := by
  simp only [encodeLines, List.mem_append, List.mem_flatten, List.mem_map]
  exact .inl ⟨l ++ [10], ⟨l, hl, rfl⟩, List.mem_append_left _ hx⟩

/-- A stream with no NUL has lines and a rest with no NUL. -/
theorem splitLines_nonul {s : List UInt8} (hs : 0 ∉ s) :
    (∀ l ∈ (splitLines s).1, 0 ∉ l) ∧ 0 ∉ (splitLines s).2 := by
  rw [← encodeLines_splitLines s] at hs
  exact ⟨fun l hl h => hs (mem_encodeLines_of_mem hl h _),
    fun h => hs (List.mem_append_right _ h)⟩

/-- Lines and a rest with no NUL make a stream with no NUL. -/
theorem encodeLines_nonul {ls : List (List UInt8)} {rest : List UInt8} (hls : ∀ l ∈ ls, 0 ∉ l)
    (hrest : 0 ∉ rest) : 0 ∉ encodeLines ls rest := by
  induction ls with
  | nil => exact hrest
  | cons l ls ih =>
    simp only [encodeLines_cons, List.mem_append, List.mem_cons, not_or]
    exact ⟨hls l (List.mem_cons_self _ _), by decide, ih fun l' h => hls l' (List.mem_cons_of_mem _ h)⟩

theorem cString_of_nonul {l : List UInt8} (h : 0 ∉ l) : cString l = l :=
  List.takeWhile_eq_self_iff.mpr (fun x hx => by simpa using ne_of_mem_of_not_mem hx h)

/-! ### The server's reader loop -/

section Loop

variable {σ : Type} (B : Backend σ) (t : Nat) (lr : List UInt8 → World σ → Except Halt (Int × World σ))
  {eof : Bool} {w : World σ} {r : Reader}

/-- With a line reader that always completes, the loop hands it every line, in order, consumes
them, and leaves the rest; at end of file the connection is then torn down. -/
theorem readerLoop_complete (f : World σ → List UInt8 → World σ) {ls : List (List UInt8)}
    {rest : List UInt8} (hls : ∀ l ∈ ls, 10 ∉ l ∧ 0 ∉ l) (hrest : 10 ∉ rest) :
    readerLoop B t (fun l w => .ok (1, f w l)) eof [] (encodeLines ls rest) w r =
      (.ok (if eof then readerEof B t (ls.foldl f w) else ls.foldl f w),
        r.consume (encodeLines ls []).length) := by
  induction ls generalizing w r with
  | nil => simpa using readerLoop_noline B t _ hrest
  | cons l ls ih =>
    obtain ⟨hl10, hl0⟩ := hls l (List.mem_cons_self _ _)
    rw [encodeLines_cons, readerLoop_line B t _ hl10]
    simp only [cString_of_nonul hl0]
    rw [if_neg (by decide), ih (fun l' h => hls l' (List.mem_cons_of_mem _ h))]
    simp only [Reader.consume_consume, encodeLines_cons, List.length_append, List.length_cons]
    congr 2
    omega

/-- Reads on a connection's reader in turn, each handed to `reader_callback` with line reader `lr`:
what the event loop does while the reader stays enabled, as it does when every line completes. -/
def readEvents : List ReadResult → Except Halt (World σ) → Reader → Except Halt (World σ) × Reader
  | [], u, r => (u, r)
  | res :: rs, u, r =>
    let p := r.readable (readerCallback B t lr) (readerError B t) u res
    readEvents rs p.1 p.2

/-- Reads one after another: the events after a prefix start from where the prefix left off. -/
theorem readEvents_append (rs₁ rs₂ : List ReadResult) (u : Except Halt (World σ)) (r : Reader) :
    readEvents B t lr (rs₁ ++ rs₂) u r =
      readEvents B t lr rs₂ (readEvents B t lr rs₁ u r).1 (readEvents B t lr rs₁ u r).2 := by
  induction rs₁ generalizing u r with
  | nil => rfl
  | cons res rs ih => exact ih _ _

/-- One read of `c` with a line reader that completes: the lines of the buffered bytes and `c`
are handed over, and the bytes after the last newline stay buffered. -/
theorem readable_complete (f : World σ → List UInt8 → World σ) {r : Reader} (hr : r.b.Wf)
    {c : List UInt8} (h0 : 0 ∉ r.b.content ++ c) :
    ∃ r', r.readable (readerCallback B t (fun l w => .ok (1, f w l))) (readerError B t) (.ok w) (.data c) =
        (.ok ((splitLines (r.b.content ++ c)).1.foldl f w), r') ∧
      r'.b.Wf ∧ r'.b.content = (splitLines (r.b.content ++ c)).2 := by
  obtain ⟨hw₁, hc₁, -⟩ := Buffer.bufferSpace_spec hr 1
  obtain ⟨hw₂, hc₂⟩ := Buffer.fill_spec hw₁ c
  rw [hc₁] at hc₂
  generalize r.b.content ++ c = s at hc₂ h0 ⊢
  obtain ⟨hls, hrest⟩ := splitLines_noline s
  obtain ⟨hls0, -⟩ := splitLines_nonul h0
  have he := encodeLines_splitLines s
  generalize splitLines s = p at hls hrest hls0 he ⊢
  obtain ⟨ls, rest⟩ := p
  subst he
  dsimp only at hls hrest hls0 hc₂ ⊢
  have hlen : (encodeLines ls []).length ≤ ((r.b.bufferSpace 1).fill c).content.length := by
    rw [hc₂, ← encodeLines_nil_append ls rest, List.length_append]; omega
  obtain ⟨hw₃, hc₃⟩ := Buffer.consume_spec hw₂ hlen
  refine ⟨({ r with b := (r.b.bufferSpace 1).fill c } : Reader).consume (encodeLines ls []).length, ?_, hw₃, ?_⟩
  · simp only [Reader.readable, readerCallback]
    rw [hc₂, readerLoop_complete B t f (fun l hl => ⟨hls l hl, hls0 l hl⟩) hrest]
    rfl
  · rw [Reader.consume, hc₃, hc₂, ← encodeLines_nil_append ls rest, List.drop_left]

/-- Reads of any sizes with a line reader that completes: the lines of everything read so far are
handed over in order, and what follows the last newline is buffered. -/
theorem readEvents_complete (f : World σ → List UInt8 → World σ) (cs : List (List UInt8)) :
    ∀ (w : World σ) (r : Reader), r.b.Wf → 10 ∉ r.b.content → 0 ∉ r.b.content ++ cs.flatten →
      ∃ r', readEvents B t (fun l w => .ok (1, f w l)) (cs.map .data) (.ok w) r =
          (.ok ((splitLines (r.b.content ++ cs.flatten)).1.foldl f w), r') ∧
        r'.b.Wf ∧ r'.b.content = (splitLines (r.b.content ++ cs.flatten)).2 := by
  induction cs with
  | nil =>
    intro w r hr h10 _
    simpa [readEvents, splitLines_noline_eq h10] using hr
  | cons c cs ih =>
    intro w r hr _ h0
    rw [List.flatten_cons, ← List.append_assoc] at h0 ⊢
    obtain ⟨r₁, h₁, hw₁, hc₁⟩ := readable_complete B t (w := w) f hr (fun h => h0 (List.mem_append_left _ h))
    have hsuffix : 0 ∉ r₁.b.content ++ cs.flatten := by
      rw [hc₁]
      intro h
      apply h0
      rw [← encodeLines_splitLines (r.b.content ++ c), ← encodeLines_nil_append, List.append_assoc]
      exact List.mem_append_right _ h
    obtain ⟨r₂, h₂, hw₂, hc₂⟩ :=
      ih ((splitLines (r.b.content ++ c)).1.foldl f w) r₁ hw₁ (hc₁ ▸ (splitLines_noline _).2) hsuffix
    refine ⟨r₂, ?_, hw₂, ?_⟩
    · simp only [List.map_cons, readEvents, h₁, h₂, hc₁, splitLines_append (r.b.content ++ c),
        List.foldl_append]
    · rw [hc₂, hc₁, splitLines_append (r.b.content ++ c)]

end Loop

/-- Whatever the sizes of the reads, a fresh connection's line reader, if it completes, is handed
exactly the stream's newline-terminated lines, in order; the bytes after the last newline stay
buffered, and at end of file they are dropped as the connection is torn down. -/
theorem lines_independent_of_reads {σ : Type} (B : Backend σ) (t : Nat)
    (f : World σ → List UInt8 → World σ) (w : World σ) (ls : List (List UInt8)) (rest : List UInt8)
    (chunks : List (List UInt8)) (hls : ∀ l ∈ ls, 10 ∉ l ∧ 0 ∉ l) (hrest : 10 ∉ rest ∧ 0 ∉ rest)
    (hc : chunks.flatten = encodeLines ls rest) :
    (readEvents B t (fun l w => .ok (1, f w l)) (chunks.map .data) (.ok w) Reader.new).1 =
        .ok (ls.foldl f w) ∧
      (readEvents B t (fun l w => .ok (1, f w l)) (chunks.map .data) (.ok w) Reader.new).2.b.content =
        rest ∧
      (readEvents B t (fun l w => .ok (1, f w l)) (chunks.map .data ++ [.eof]) (.ok w) Reader.new).1 =
        .ok (readerEof B t (ls.foldl f w)) := by
  have hsplit : splitLines chunks.flatten = (ls, rest) :=
    hc ▸ splitLines_encodeLines (fun l h => (hls l h).1) hrest.1
  have h0 : 0 ∉ Reader.new.b.content ++ chunks.flatten := by
    rw [hc]; exact encodeLines_nonul (fun l h => (hls l h).2) hrest.2
  obtain ⟨r, hrun, hw, hcontent⟩ := readEvents_complete B t f chunks w Reader.new ⟨le_rfl, le_rfl⟩
    (by simp [Reader.new, Buffer.empty, Buffer.content]) h0
  have hnew : Reader.new.b.content = [] := rfl
  rw [hnew, List.nil_append, hsplit] at hrun hcontent
  refine ⟨by rw [hrun], by rw [hrun]; exact hcontent, ?_⟩
  rw [readEvents_append, hrun]
  simp only [readEvents, Reader.readable, readerCallback]
  rw [show ({ r with b := r.b.bufferSpace 1 } : Reader).b.content = rest from
    (Buffer.bufferSpace_spec hw 1).2.1.trans hcontent, readerLoop_noline B t _ hrest.1]
  rfl

/-- The lines `hi` and `x` and an unterminated `y`, read as `h`, `i\nx` and `\ny`, by a line
reader that collects the lines in the connection's body. -/
theorem lines_independent_of_reads_hi :
    let f : World Unit → List UInt8 → World Unit :=
      fun w l => w.modifyConn 0 (fun c => { c with body := c.body ++ [l] })
    let w : World Unit := { World.start () Config.plain none 0 false with
      conns := [newConn ⟨"socket", .unix, false⟩ (some "local") []], connections := [0] }
    let chunks := [utf8 "h", utf8 "i\nx", utf8 "\ny"]
    (readEvents Backend.plain 0 (fun l w => .ok (1, f w l)) (chunks.map .data) (.ok w) Reader.new).1 =
        .ok ([utf8 "hi", utf8 "x"].foldl f w) ∧
      (readEvents Backend.plain 0 (fun l w => .ok (1, f w l)) (chunks.map .data) (.ok w) Reader.new).2.b.content =
        utf8 "y" ∧
      (readEvents Backend.plain 0 (fun l w => .ok (1, f w l)) (chunks.map .data ++ [.eof]) (.ok w) Reader.new).1 =
        .ok (readerEof Backend.plain 0 ([utf8 "hi", utf8 "x"].foldl f w)) :=
  lines_independent_of_reads Backend.plain 0 _ _ [utf8 "hi", utf8 "x"] (utf8 "y") _ (by decide) (by decide)
    (by decide)

/-! ### Command bodies -/

section Body

variable {σ : Type} (B : Backend σ) (t : Nat) {w : World σ} {eof : Bool} {r : Reader}

/-- `body_line` of a line as the client stuffs it adds the client's line to the body. -/
theorem bodyLine_stuffed (l : List UInt8) :
    bodyLine B t ((if l.head? = some 46 then [46] else []) ++ l) w =
      .ok (1, w.modifyConn t (fun c => { c with body := c.body ++ [l] })) := by
  match l with
  | [] => rfl
  | 46 :: l => simp [bodyLine]
  | b :: l =>
    by_cases hb : b = 46
    · subst hb; simp [bodyLine]
    · simp [bodyLine, hb]

/-- The body callback completes, and leaves the connection on the line reader it found. -/
theorem cPlaylistSetBody_complete {body : List (List UInt8)} {u : String} {n : Int} {w' : World σ}
    (h : cPlaylistSetBody B t body u w = .ok (n, w')) :
    n = 1 ∧ (w'.conn t).lineReader = (w.conn t).lineReader := by
  have hreply {w₀ : World σ} {s : String} (h : w₀.reply t s = .ok (n, w')) (hw₀ : w₀.conns = w.conns) :
      n = 1 ∧ (w'.conn t).lineReader = (w.conn t).lineReader := by
    obtain ⟨wr, out, hc⟩ := World.reply_conn h t
    exact ⟨(World.reply_frame h).1, by rw [hc]; simp [World.conn, hw₀]⟩
  unfold cPlaylistSetBody at h
  dsimp only at h
  split at h
  · exact hreply h rfl
  split at h
  · exact hreply h rfl
  · unfold playlistResponse at h
    split at h
    · cases h
    repeat' (first | exact hreply h rfl | split at h)

/-- Stuffed lines with no newline or NUL, before the terminating `.` line: each is added to the
body, and the loop reaches the `.` line. -/
theorem readerLoop_body_lines (more : List UInt8) : ∀ (bs : List (List UInt8)) (w : World σ) (r : Reader),
    (∀ l ∈ bs, 10 ∉ l ∧ 0 ∉ l) → t < w.conns.length → (w.conn t).lineReader = .bodyLine →
      readerLoop B t (lineReader B t) eof [] (bs.flatMap Client.stuffLine ++ 46 :: 10 :: more) w r =
        readerLoop B t (lineReader B t) eof [] (46 :: 10 :: more)
          (w.modifyConn t (fun c => { c with body := c.body ++ bs }))
          (r.consume (bs.flatMap Client.stuffLine).length)
  | [], w, r, _, _, _ => by
    simp only [List.flatMap_nil, List.nil_append, List.append_nil, List.length_nil, Reader.consume_zero]
    show _ = readerLoop B t (lineReader B t) eof [] _ (w.setConn t (w.conn t)) r
    rw [World.setConn_conn_self]
  | l :: bs, w, r, hbs, ht, hr => by
    obtain ⟨hl10, hl0⟩ := hbs l (List.mem_cons_self _ _)
    have hs10 : 10 ∉ (if l.head? = some 46 then [46] else []) ++ l := by
      split_ifs <;> simp [hl10]
    have hs0 : 0 ∉ (if l.head? = some 46 then [46] else []) ++ l := by
      split_ifs <;> simp [hl0]
    have heq : (l :: bs).flatMap Client.stuffLine ++ 46 :: 10 :: more =
        ((if l.head? = some 46 then [46] else []) ++ l) ++ 10 :: (bs.flatMap Client.stuffLine ++ 46 :: 10 :: more) := by
      simp [Client.stuffLine]
    rw [heq, readerLoop_line B t _ hs10, cString_of_nonul hs0]
    simp only [lineReader, hr, bodyLine_stuffed]
    rw [if_neg (by decide), readerLoop_body_lines more bs _ _ (fun l' h => hbs l' (List.mem_cons_of_mem _ h))
      (by simpa using ht) (by simpa [ht] using hr), World.modifyConn_modifyConn ht, Reader.consume_consume]
    simp only [Function.comp_def, List.append_assoc, List.singleton_append, List.length_append,
      List.length_cons, List.flatMap_cons, Client.stuffLine]
    congr 2
    omega

/-- The body the client sends with `disorder__body`, then further bytes: `body_line` collects
exactly the client's lines, the line `.` hands them to the body callback with the connection back
on `command`, and the loop goes on with the bytes after the body. -/
theorem body_round_trip (body : List (List UInt8)) (nbody : Int) (hbody : ∀ l ∈ body, 10 ∉ l ∧ 0 ∉ l)
    (ht : t < w.conns.length) (hr : (w.conn t).lineReader = .bodyLine) (hb : (w.conn t).body = [])
    (more : List UInt8) :
    let sent := body.take (Client.vecCount body.length nbody)
    let w₁ := w.modifyConn t (fun c => { c with lineReader := .command, body := sent })
    readerLoop B t (lineReader B t) eof [] (Client.bodyBytes body nbody ++ more) w r =
      (match cPlaylistSetBody B t sent (w.conn t).bodyU w₁ with
        | .error e => (.error e, r.consume (Client.bodyBytes body nbody).length)
        | .ok (_, w₂) =>
          readerLoop B t (lineReader B t) eof [] more w₂ (r.consume (Client.bodyBytes body nbody).length)) ∧
      ∀ n w₂, cPlaylistSetBody B t sent (w.conn t).bodyU w₁ = .ok (n, w₂) →
        (w₂.conn t).lineReader = .command := by
  intro sent w₁
  have hsent : ∀ l ∈ sent, 10 ∉ l ∧ 0 ∉ l := fun l hl => hbody l (List.mem_of_mem_take hl)
  have hbytes : Client.bodyBytes body nbody ++ more = sent.flatMap Client.stuffLine ++ 46 :: 10 :: more := by
    simp [Client.bodyBytes, sent]
  have hw₁ : (w.modifyConn t (fun c => { c with body := c.body ++ sent })).modifyConn t
      (fun c => { c with lineReader := .command }) = w₁ := by
    rw [World.modifyConn_modifyConn ht]
    simp [w₁, World.modifyConn_eq, hb]
  refine ⟨?_, fun n w₂ h => ?_⟩
  · rw [hbytes, readerLoop_body_lines B t more sent w r hsent ht hr, show (46 :: 10 :: more : List UInt8) = [46] ++ 10 :: more from rfl,
      readerLoop_line B t _ (by decide), show cString [46] = [46] from rfl]
    simp only [lineReader, World.conn_modifyConn_self ht, hr, bodyLine, if_true, hb, List.nil_append, hw₁]
    rcases hc : cPlaylistSetBody B t sent (w.conn t).bodyU w₁ with e | ⟨n, w₂⟩
    · simp [Client.bodyBytes, sent, Nat.add_assoc]
    · simp [Client.bodyBytes, sent, Nat.add_assoc, (cPlaylistSetBody_complete B t hc).1]
  · rw [(cPlaylistSetBody_complete B t h).2, World.conn_modifyConn_self ht]

/-- The body `a`, `.b` and an empty line, sent with `disorder__body` and `-1`, then `nop`, on a
connection that `playlist-set` has switched to reading a body. -/
theorem body_round_trip_dot :
    let body : List (List UInt8) := [utf8 "a", utf8 ".b", []]
    let w : World Unit := { World.start () Config.plain none 0 false with
      conns := [{ newConn ⟨"socket", .unix, false⟩ (some "local") [] with lineReader := .bodyLine }],
      connections := [0] }
    let sent := body.take (Client.vecCount body.length (-1))
    let w₁ := w.modifyConn 0 (fun c => { c with lineReader := .command, body := sent })
    readerLoop Backend.plain 0 (lineReader Backend.plain 0) false [] (Client.bodyBytes body (-1) ++ utf8 "nop\n")
        w Reader.new =
      (match cPlaylistSetBody Backend.plain 0 sent (w.conn 0).bodyU w₁ with
        | .error e => (.error e, Reader.new.consume (Client.bodyBytes body (-1)).length)
        | .ok (_, w₂) => readerLoop Backend.plain 0 (lineReader Backend.plain 0) false [] (utf8 "nop\n") w₂
            (Reader.new.consume (Client.bodyBytes body (-1)).length)) ∧
      ∀ n w₂, cPlaylistSetBody Backend.plain 0 sent (w.conn 0).bodyU w₁ = .ok (n, w₂) →
        (w₂.conn 0).lineReader = .command :=
  body_round_trip Backend.plain 0
    (w := { World.start () Config.plain none 0 false with
      conns := [{ newConn ⟨"socket", .unix, false⟩ (some "local") [] with lineReader := .bodyLine }],
      connections := [0] })
    [utf8 "a", utf8 ".b", []] (-1) (by decide) (by decide) rfl rfl _

end Body

end Disorder.Server
