import ColumnVault.Proofs.Zstd.Limit

/-! Decoding a frame in chunks. A decoder that works in turns reads on in each turn and writes at most one
chunk. The loop takes turns until the frame is over, the content gets larger than the limit, or a turn
neither reads nor writes. It ends whatever the bytes and the decoder are, and never holds more content than
the limit; and with a decoder that reads frames as `readFrame` does, it accepts what `decode` accepts. -/

namespace ColumnVault.Zstd

/-! ### Decoders that work in turns -/

/-- Bytes that are read up to a position. -/
structure Input where
  bytes : ByteArray
  pos : Nat
  pos_le : pos ≤ bytes.size

/-- What a turn comes to: how far the bytes are read, what is written, and a hint at how many more bytes
are needed. -/
structure Turn (i : Input) where
  next : Nat
  chunk : ByteArray
  hint : Nat
  pos_le_next : i.pos ≤ next
  next_le : next ≤ i.bytes.size
  size_chunk_le : chunk.size ≤ chunkSize

/-- A decoder that works in turns, and can be used again once it is reset. Failures are told as texts. -/
structure Decoder (σ : Type) where
  reset : σ → Except String σ
  run : σ → (i : Input) → Except String (Turn i × σ)

/-- What the loop keeps: the state of the decoder, how far the bytes are read, and the content so far. -/
structure Reading (σ : Type) (bytes : ByteArray) where
  state : σ
  pos : Nat
  pos_le : pos ≤ bytes.size
  out : ByteArray

variable {σ : Type} {bytes content out : ByteArray} {limit n next : Nat} {d : Decoder σ} {s : σ}
  {r r' : Reading σ bytes}

namespace Reading

def start (s : σ) (bytes : ByteArray) : Reading σ bytes :=
  ⟨s, 0, Nat.zero_le _, ByteArray.empty⟩

def input (r : Reading σ bytes) : Input :=
  ⟨bytes, r.pos, r.pos_le⟩

def after (r : Reading σ bytes) (t : Turn r.input) (s : σ) : Reading σ bytes :=
  ⟨s, t.next, t.next_le, r.out ++ t.chunk⟩

/-- How many bytes can still be read, and written within the limit. -/
def left (r : Reading σ bytes) (limit : Nat) : Nat :=
  (bytes.size - r.pos) + (limit - r.out.size)

end Reading

namespace Decoder

/-! ### The loop -/

/-- One turn of the loop: it goes on, or ends with the content or the text of a failure. -/
def turn (d : Decoder σ) (limit : Nat) (r : Reading σ bytes) :
    Reading σ bytes ⊕ Except String ByteArray :=
  match d.run r.state r.input with
  | .error text => .inr (.error s!"zstd: {text}")
  | .ok (t, s) =>
    if r.out.size + t.chunk.size > limit then
      .inr (.error s!"decompressed size exceeds {limit} bytes")
    else if t.hint = 0 then
      if t.next ≠ bytes.size then .inr (.error "zstd: trailing bytes after frame")
      else .inr (.ok (r.out ++ t.chunk))
    else if t.chunk.size = 0 ∧ t.next = r.pos then .inr (.error "zstd: truncated frame")
    else .inl (r.after t s)

theorem turn_of_error {text : String} (h : d.run r.state r.input = .error text) :
    d.turn limit r = .inr (.error s!"zstd: {text}") := by
  rw [turn, h]

theorem turn_of_ok {t : Turn r.input} (h : d.run r.state r.input = .ok (t, s)) : d.turn limit r =
    if r.out.size + t.chunk.size > limit then
      .inr (.error s!"decompressed size exceeds {limit} bytes")
    else if t.hint = 0 then
      if t.next ≠ bytes.size then .inr (.error "zstd: trailing bytes after frame")
      else .inr (.ok (r.out ++ t.chunk))
    else if t.chunk.size = 0 ∧ t.next = r.pos then .inr (.error "zstd: truncated frame")
    else .inl (r.after t s) := by
  rw [turn, h]

theorem turn_eq_inl_iff : d.turn limit r = .inl r' ↔ ∃ t s, d.run r.state r.input = .ok (t, s) ∧
    r.out.size + t.chunk.size ≤ limit ∧ t.hint ≠ 0 ∧ ¬(t.chunk.size = 0 ∧ t.next = r.pos) ∧
    r' = r.after t s := by
  rw [turn]
  cases d.run r.state r.input with
  | error text => exact ⟨nofun, nofun⟩
  | ok e =>
    obtain ⟨t, s⟩ := e
    dsimp only
    constructor
    · intro h
      split_ifs at h with hlarge hover hnext hstalls
      cases h
      exact ⟨t, s, rfl, Nat.not_lt.1 hlarge, hover, hstalls, rfl⟩
    · rintro ⟨_, _, ⟨⟩, hle, hgoes, hmoves, rfl⟩
      rw [if_neg (Nat.not_lt.2 hle), if_neg hgoes, if_neg hmoves]

theorem turn_eq_ok_iff : d.turn limit r = .inr (.ok out) ↔ ∃ t s, d.run r.state r.input = .ok (t, s) ∧
    r.out.size + t.chunk.size ≤ limit ∧ t.hint = 0 ∧ t.next = bytes.size ∧ out = r.out ++ t.chunk := by
  rw [turn]
  cases d.run r.state r.input with
  | error text => exact ⟨nofun, nofun⟩
  | ok e =>
    obtain ⟨t, s⟩ := e
    dsimp only
    constructor
    · intro h
      split_ifs at h with hlarge hover hnext hstalls <;> cases h
      exact ⟨t, s, rfl, Nat.not_lt.1 hlarge, hover, not_not.1 hnext, rfl⟩
    · rintro ⟨_, _, ⟨⟩, hle, hover, hnext, rfl⟩
      rw [if_neg (Nat.not_lt.2 hle), if_pos hover, if_neg (not_not.2 hnext)]

/-- A turn after which the loop goes on leaves less to be read or written. -/
theorem left_lt_of_turn (h : d.turn limit r = .inl r') : r'.left limit < r.left limit := by
  obtain ⟨t, s, -, hle, -, hmoves, rfl⟩ := turn_eq_inl_iff.1 h
  have hpos : r.pos ≤ t.next := t.pos_le_next
  have hnext : t.next ≤ bytes.size := t.next_le
  simp only [Reading.left, Reading.after, ByteArray.size_append]
  omega

/-- The loop never keeps more than the limit. -/
theorem size_out_le_of_turn (h : d.turn limit r = .inl r') : r'.out.size ≤ limit := by
  obtain ⟨t, s, -, hle, -, -, rfl⟩ := turn_eq_inl_iff.1 h
  rwa [Reading.after, ByteArray.size_append]

/-- Takes turns until one of them is the last. -/
def loop (d : Decoder σ) (limit : Nat) (r : Reading σ bytes) : Except String ByteArray :=
  match _h : d.turn limit r with
  | .inl r' => d.loop limit r'
  | .inr result => result
termination_by r.left limit
decreasing_by exact left_lt_of_turn _h

theorem loop_of_inl (h : d.turn limit r = .inl r') : d.loop limit r = d.loop limit r' := by
  rw [loop]
  split
  · next h' => rw [Sum.inl.inj (h.symm.trans h')]
  · next h' => cases h.symm.trans h'

theorem loop_of_inr {result : Except String ByteArray} (h : d.turn limit r = .inr result) :
    d.loop limit r = result := by
  rw [loop]
  split
  · next h' => cases h.symm.trans h'
  · next h' => exact (Sum.inr.inj (h.symm.trans h')).symm

/-- Takes at most a number of turns. -/
def turns (d : Decoder σ) (limit : Nat) :
    Nat → Reading σ bytes → Reading σ bytes ⊕ Except String ByteArray
  | 0, r => .inl r
  | n + 1, r =>
    match d.turn limit r with
    | .inl r' => d.turns limit n r'
    | .inr result => .inr result

/-- The loop ends after no more turns than there are bytes to be read and written, and one. -/
theorem turns_eq_loop (h : r.left limit < n) : d.turns limit n r = .inr (d.loop limit r) := by
  induction n generalizing r with
  | zero => exact absurd h (Nat.not_lt_zero _)
  | succ n ih =>
    rw [turns]
    split
    · next r' hturn =>
      rw [loop_of_inl hturn]
      exact ih (Nat.lt_of_lt_of_le (left_lt_of_turn hturn) (Nat.lt_succ_iff.1 h))
    · next result hturn => rw [loop_of_inr hturn]

theorem size_out_le_of_turns (hr : r.out.size ≤ limit) (h : d.turns limit n r = .inl r') :
    r'.out.size ≤ limit := by
  induction n generalizing r with
  | zero =>
    cases h
    exact hr
  | succ n ih =>
    rw [turns] at h
    split at h
    · next hturn => exact ih (size_out_le_of_turn hturn) h
    · cases h

/-- The content of the one frame that the bytes are, by a decoder that was left in some state. -/
def decode (d : Decoder σ) (s : σ) (limit : Nat) (bytes : ByteArray) : Except String ByteArray :=
  match d.reset s with
  | .error text => .error s!"zstd reset: {text}"
  | .ok s => d.loop limit (.start s bytes)

end Decoder

/-! ### Decoders that read frames -/

/-- The bytes begin with a whole frame, which has a content and ends at a position. -/
def Begins (bytes content : ByteArray) (next : Nat) : Prop :=
  ∃ limit, readFrame limit bytes = .ok (content, next)

theorem isFrame_iff_begins : IsFrame bytes content ↔ Begins bytes content bytes.size :=
  exists_congr fun _ => decode_eq_ok_iff_readFrame

theorem Begins.unique {content' : ByteArray} {next' : Nat} (h : Begins bytes content next)
    (h' : Begins bytes content' next') : content = content' ∧ next = next' := by
  obtain ⟨limit, h⟩ := h
  obtain ⟨limit', h'⟩ := h'
  -- both are read under a limit that suffices for both
  have hread := (readFrame_limited bytes _ _ _ h).2 _ (Nat.le_max_left content.size content'.size)
  have hread' := (readFrame_limited bytes _ _ _ h').2 _ (Nat.le_max_right content.size content'.size)
  exact Prod.mk.inj (Except.ok.inj (hread.symm.trans hread'))

namespace Decoder

/-- After a reset a decoder has come here by turns with a hint that more is needed. -/
inductive Going (d : Decoder σ) : Reading σ bytes → Prop
  | start {s s' : σ} (h : d.reset s = .ok s') : Going d (.start s' bytes)
  | turn {r : Reading σ bytes} {t : Turn r.input} {s : σ} (hr : Going d r)
      (h : d.run r.state r.input = .ok (t, s)) (hhint : t.hint ≠ 0) : Going d (r.after t s)

/-- A decoder reads the frame that some bytes begin with, if they do. -/
structure Streams (d : Decoder σ) (bytes : ByteArray) : Prop where
  /-- It can be reset, whatever was read before. -/
  resets : ∀ s, ∃ s', d.reset s = .ok s'
  /-- It hints that no more is needed only when the frame is over and its content written. -/
  ends : ∀ (r : Reading σ bytes) t s, d.Going r → d.run r.state r.input = .ok (t, s) → t.hint = 0 →
    Begins bytes (r.out ++ t.chunk) t.next
  /-- While there is a frame to be read, no turn fails, and what is written goes on as its content does. -/
  writes : ∀ (r : Reading σ bytes) content next, d.Going r → Begins bytes content next →
    ∃ t s, d.run r.state r.input = .ok (t, s) ∧ ∃ rest, content = r.out ++ t.chunk ++ rest
  /-- It only stalls where the bytes are cut off within a frame. -/
  stalls : ∀ (r : Reading σ bytes) t s, d.Going r → d.run r.state r.input = .ok (t, s) → t.hint ≠ 0 →
    t.chunk.size = 0 → t.next = r.pos → ∀ content next, ¬Begins bytes content next

theorem Going.of_turn (hr : d.Going r) (h : d.turn limit r = .inl r') : d.Going r' := by
  obtain ⟨t, s, hrun, -, hhint, -, rfl⟩ := turn_eq_inl_iff.1 h
  exact hr.turn hrun hhint

/-- What the loop ends with is a whole frame, with nothing behind it. -/
theorem Streams.isFrame_of_turn (h : d.Streams bytes) (hr : d.Going r)
    (hturn : d.turn limit r = .inr (.ok out)) : IsFrame bytes out ∧ out.size ≤ limit := by
  obtain ⟨t, s, hrun, hle, hhint, hnext, rfl⟩ := turn_eq_ok_iff.1 hturn
  refine ⟨isFrame_iff_begins.2 ?_, by rwa [ByteArray.size_append]⟩
  rw [← hnext]
  exact h.ends r t s hr hrun hhint

/-- For a whole frame within the limit, a turn goes on or ends with its content. -/
theorem Streams.turn_of_isFrame (h : d.Streams bytes) (hr : d.Going r) (hframe : IsFrame bytes out)
    (hle : out.size ≤ limit) :
    d.turn limit r = .inr (.ok out) ∨ ∃ r', d.turn limit r = .inl r' := by
  have hbegins := isFrame_iff_begins.1 hframe
  obtain ⟨t, s, hrun, rest, hout⟩ := h.writes r out _ hr hbegins
  have hsize := congrArg ByteArray.size hout
  rw [ByteArray.size_append, ByteArray.size_append] at hsize
  have hroom : r.out.size + t.chunk.size ≤ limit := by omega
  by_cases hhint : t.hint = 0
  · obtain ⟨rfl, hnext⟩ := hbegins.unique (h.ends r t s hr hrun hhint)
    exact .inl (turn_eq_ok_iff.2 ⟨t, s, hrun, hroom, hhint, hnext.symm, rfl⟩)
  · refine .inr ⟨_, turn_eq_inl_iff.2 ⟨t, s, hrun, hroom, hhint, fun ⟨hchunk, hnext⟩ => ?_, rfl⟩⟩
    exact h.stalls r t s hr hrun hhint hchunk hnext _ _ hbegins

/-- From wherever a decoder has come, the loop ends with a content exactly if that is the content of the one
frame that the bytes are, and within the limit. -/
theorem Streams.loop_eq_ok_iff (h : d.Streams bytes) (hr : d.Going r) :
    d.loop limit r = .ok out ↔ IsFrame bytes out ∧ out.size ≤ limit := by
  fun_induction loop d limit r with
  | case1 r r' hturn ih => exact ih (hr.of_turn hturn)
  | case2 r result hturn =>
    constructor
    · rintro rfl
      exact h.isFrame_of_turn hr hturn
    · rintro ⟨hframe, hle⟩
      obtain hok | ⟨r', hgoes⟩ := h.turn_of_isFrame hr hframe hle
      · exact Sum.inr.inj (hturn.symm.trans hok)
      · cases hturn.symm.trans hgoes

theorem Streams.decode_eq_ok_iff (h : d.Streams bytes) (s : σ) :
    d.decode s limit bytes = .ok out ↔ IsFrame bytes out ∧ out.size ≤ limit := by
  obtain ⟨s', hreset⟩ := h.resets s
  rw [decode, hreset]
  exact h.loop_eq_ok_iff (.start hreset)

end Decoder

end ColumnVault.Zstd
