import ColumnVault.Error
import ColumnVault.Proofs.Zstd.Plan
import ColumnVault.Proofs.Zstd.Stream

/-! A decoder that works in turns, made from plans. It reads frames as `readFrame` does, and the loop with it
comes to exactly what `decode` comes to, the texts of failures included. -/

namespace ColumnVault.Zstd

variable {bytes content : ByteArray} {limit next k : Nat} {p : Plan bytes}
  {plan : (bytes : ByteArray) → Plan bytes} {r r' : Reading Nat bytes}

/-- The next chunk, where some bytes of the content are written. -/
def Plan.chunk (p : Plan bytes) (written : Nat) : ByteArray :=
  p.content.extract written (written + chunkSize)

theorem Plan.size_chunk (p : Plan bytes) (k : Nat) :
    (p.chunk k).size = min (k + chunkSize) p.content.size - k := by
  rw [chunk, ByteArray.size_extract]

theorem Plan.size_chunk_le (p : Plan bytes) (k : Nat) : (p.chunk k).size ≤ chunkSize := by
  rw [p.size_chunk]
  omega

/-- The turn that writes the last chunk and reads all bytes that are left, unless it comes to a fault. -/
def Plan.lastTurn (p : Plan bytes) (written pos : Nat) (h : pos ≤ bytes.size) :
    Except String (Turn ⟨bytes, pos, h⟩ × Nat) :=
  match p.ending with
  | .fault f => .error f.message
  | .cut =>
    .ok (⟨bytes.size, p.chunk written, 1, h, Nat.le_refl _, p.size_chunk_le _⟩, p.content.size)
  | .whole next hnext =>
    .ok (⟨max pos next, p.chunk written, 0, Nat.le_max_left _ _, Nat.max_le.2 ⟨h, hnext⟩,
      p.size_chunk_le _⟩, p.content.size)

/-- Carries out plans, a chunk in each turn. -/
def Decoder.ofPlan (plan : (bytes : ByteArray) → Plan bytes) : Decoder Nat where
  reset _ := .ok 0
  run written i :=
    let p := plan i.bytes
    if written + chunkSize < p.content.size then
      .ok (⟨i.pos, p.chunk written, 1, Nat.le_refl _, i.pos_le, p.size_chunk_le _⟩, written + chunkSize)
    else p.lastTurn written i.pos i.pos_le

namespace Decoder

theorem run_ofPlan_of_lt (plan : (bytes : ByteArray) → Plan bytes)
    (h : r.state + chunkSize < (plan bytes).content.size) :
    (ofPlan plan).run r.state r.input =
      .ok (⟨r.pos, (plan bytes).chunk r.state, 1, Nat.le_refl _, r.pos_le, (plan bytes).size_chunk_le _⟩,
        r.state + chunkSize) :=
  if_pos h

theorem run_ofPlan_of_le (plan : (bytes : ByteArray) → Plan bytes)
    (h : (plan bytes).content.size ≤ r.state + chunkSize) :
    (ofPlan plan).run r.state r.input = (plan bytes).lastTurn r.state r.pos r.pos_le :=
  if_neg (Nat.not_lt.2 h)

end Decoder

/-- How far a plan is carried out: the front of its content is written, and nothing is read unless the bytes
are cut off. -/
structure Plan.At (p : Plan bytes) (r : Reading Nat bytes) : Prop where
  out : r.out = p.content.extract 0 r.state
  le : r.state ≤ p.content.size
  pos : p.ending = .cut ∨ r.pos = 0

namespace Plan.At

theorem size_out (h : p.At r) : r.out.size = r.state := by
  rw [h.out, ByteArray.size_extract, Nat.min_eq_left h.le, Nat.sub_zero]

theorem append_chunk (h : p.At r) :
    r.out ++ p.chunk r.state = p.content.extract 0 (r.state + chunkSize) := by
  rw [h.out, Plan.chunk, ByteArray.extract_append_extract, Nat.zero_min,
    Nat.max_eq_right (Nat.le_add_right _ _)]

theorem append_last (h : p.At r) (hle : p.content.size ≤ r.state + chunkSize) :
    r.out ++ p.chunk r.state = p.content := by
  rw [h.append_chunk, ← Nat.max_eq_left hle, ByteArray.extract_zero_max_size]

theorem size_last (h : p.At r) (hle : p.content.size ≤ r.state + chunkSize) :
    r.out.size + (p.chunk r.state).size = p.content.size := by
  rw [← ByteArray.size_append, h.append_last hle]

theorem size_chunk_last (h : p.At r) (hle : p.content.size ≤ r.state + chunkSize) :
    (p.chunk r.state).size = p.content.size - r.state := by
  rw [← h.size_last hle, h.size_out, Nat.add_sub_cancel_left]

theorem of_going (h : (Decoder.ofPlan plan).Going r) : (plan bytes).At r := by
  induction h with
  | start hreset =>
    cases hreset
    exact ⟨ByteArray.extract_same.symm, Nat.zero_le _, .inr rfl⟩
  | @turn r t s hr hrun hhint ih =>
    obtain hmore | hlast := Nat.lt_or_ge (r.state + chunkSize) (plan bytes).content.size
    · rw [Decoder.run_ofPlan_of_lt _ hmore] at hrun
      cases hrun
      exact ⟨ih.append_chunk, Nat.le_of_lt hmore, ih.pos⟩
    · rw [Decoder.run_ofPlan_of_le _ hlast, Plan.lastTurn] at hrun
      split at hrun
      · cases hrun
      · next hcut =>
        cases hrun
        exact ⟨(ih.append_last hlast).trans ByteArray.extract_zero_size.symm, Nat.le_refl _, .inl hcut⟩
      · cases hrun
        exact absurd rfl hhint

end Plan.At

/-! ### The plan of a frame -/

/-- A plan tells the frame that some bytes begin with, if they do. -/
def Plan.Tells (p : Plan bytes) : Prop :=
  ∀ content next, Begins bytes content next ↔ p.content = content ∧ ∃ h, p.ending = .whole next h

/-- A plan for the frame that some bytes begin with tells it. -/
theorem Plan.tells_of_begins {hle : next ≤ bytes.size} (h : Begins bytes p.content next)
    (hwhole : p.ending = .whole next hle) : p.Tells := by
  intro content next'
  constructor
  · intro h'
    obtain ⟨hcontent, rfl⟩ := h.unique h'
    exact ⟨hcontent, hle, hwhole⟩
  · rintro ⟨rfl, hle', hwhole'⟩
    cases hwhole.symm.trans hwhole'
    exact h

/-- What is read under every limit tells the frame. -/
theorem Plan.tells (h : ∀ limit, readFrame limit bytes = p.goOn 0 (Meter.start limit)) : p.Tells := by
  intro content next
  simp only [Begins, h, Plan.goOn_start_eq_ok_iff]
  constructor
  · rintro ⟨limit, hcontent, -, hwhole⟩
    exact ⟨hcontent, hwhole⟩
  · rintro ⟨hcontent, hwhole⟩
    exact ⟨content.size, hcontent, Nat.le_refl _, hwhole⟩

/-- A decoder that carries out a plan which tells the frame reads the frame. -/
theorem streams_ofPlan (h : (plan bytes).Tells) : (Decoder.ofPlan plan).Streams bytes where
  resets _ := ⟨0, rfl⟩
  ends r t s hr hrun hhint := by
    have hat := Plan.At.of_going hr
    obtain hmore | hlast := Nat.lt_or_ge (r.state + chunkSize) (plan bytes).content.size
    · rw [Decoder.run_ofPlan_of_lt _ hmore] at hrun
      cases hrun
      cases hhint
    · rw [Decoder.run_ofPlan_of_le _ hlast, Plan.lastTurn] at hrun
      split at hrun
      · cases hrun
      · cases hrun
        cases hhint
      · next next hle hwhole =>
        cases hrun
        have hpos : r.pos = 0 := hat.pos.resolve_left (by rw [hwhole]; exact nofun)
        have hnext : max r.pos next = next := by rw [hpos, Nat.zero_max]
        show Begins bytes (r.out ++ (plan bytes).chunk r.state) (max r.pos next)
        rw [hat.append_last hlast, hnext]
        exact (h _ _).2 ⟨rfl, hle, hwhole⟩
  writes r content next hr hbegins := by
    obtain ⟨rfl, hle, hwhole⟩ := (h content next).1 hbegins
    have hat := Plan.At.of_going hr
    obtain hmore | hlast := Nat.lt_or_ge (r.state + chunkSize) (plan bytes).content.size
    · refine ⟨_, _, Decoder.run_ofPlan_of_lt _ hmore, (plan bytes).content.extract (r.state + chunkSize)
        (plan bytes).content.size, ?_⟩
      rw [hat.append_chunk, ← ByteArray.extract_eq_extract_append_extract _ (Nat.zero_le _)
        (Nat.le_of_lt hmore), ByteArray.extract_zero_size]
    · rw [Decoder.run_ofPlan_of_le _ hlast, Plan.lastTurn, hwhole]
      exact ⟨_, _, rfl, ByteArray.empty, by rw [hat.append_last hlast, ByteArray.append_empty]⟩
  stalls r t s hr hrun hhint hchunk hnext content next hbegins := by
    obtain ⟨-, hle, hwhole⟩ := (h content next).1 hbegins
    obtain hmore | hlast := Nat.lt_or_ge (r.state + chunkSize) (plan bytes).content.size
    · rw [Decoder.run_ofPlan_of_lt _ hmore] at hrun
      cases hrun
      rw [Plan.size_chunk] at hchunk
      have hpos : 0 < chunkSize := by decide
      omega
    · rw [Decoder.run_ofPlan_of_le _ hlast, Plan.lastTurn, hwhole] at hrun
      cases hrun
      exact hhint rfl

/-! ### The loop and the plan -/

/-- What is told of reading a frame: its content, or the text of a failure. -/
def told (bytes : ByteArray) : Except ReadFault (ByteArray × Nat) → Except String ByteArray
  | .ok (content, next) =>
    if next ≠ bytes.size then .error "zstd: trailing bytes after frame" else .ok content
  | .error fault => .error (UnpackFault.frame fault).message

theorem told_readFrame (limit : Nat) (bytes : ByteArray) : told bytes (readFrame limit bytes) =
    (decode limit bytes).mapError fun fault => (UnpackFault.frame fault).message := by
  rw [decode]
  cases readFrame limit bytes with
  | error fault => rfl
  | ok e =>
    rw [ok_bind, told]
    split_ifs with hnext
    · simp [hnext]
      rfl
    · simp [hnext]
      rfl

/-- A chunk that is handed over is one that is written. -/
theorem Plan.goOn_chunk (h : k + chunkSize < p.content.size) (limit : Nat) :
    p.goOn k ⟨limit, k, 0⟩ = p.goOn (k + chunkSize) ⟨limit, k + chunkSize, 0⟩ := by
  have hchunks : inChunks (p.content.size - k) =
      chunkSize + inChunks (p.content.size - (k + chunkSize)) := by
    rw [inChunks_of_lt (by omega), Nat.sub_sub]
  have hrest : p.content.size - k - (chunkSize + inChunks (p.content.size - (k + chunkSize))) =
      p.content.size - (k + chunkSize) - inChunks (p.content.size - (k + chunkSize)) := by omega
  rw [goOn, goOn, Meter.write_eq, Meter.write_eq]
  dsimp only
  rw [Nat.zero_add, Nat.zero_add, hchunks, hrest, Nat.add_assoc]

theorem Plan.goOn_tooLarge (h : k + chunkSize < p.content.size) (hlimit : limit < k + chunkSize) :
    p.goOn k ⟨limit, k, 0⟩ = .error (.tooLarge limit) := by
  have hchunks := inChunks_of_lt (show chunkSize < p.content.size - k by omega)
  rw [goOn, Meter.write_eq, if_pos (by dsimp only; rw [Nat.zero_add, hchunks]; omega), error_bind]

theorem Plan.goOn_last (h : p.content.size ≤ k + chunkSize) (hlimit : k ≤ limit) :
    p.goOn k ⟨limit, k, 0⟩ = p.finish ⟨limit, k, p.content.size - k⟩ := by
  have hchunks : inChunks (p.content.size - k) = 0 := inChunks_of_le (by omega)
  rw [goOn, Meter.write_eq]
  dsimp only
  rw [Nat.zero_add, hchunks, Nat.add_zero, Nat.sub_zero, if_neg (Nat.not_lt.2 hlimit), ok_bind]

/-- All content is handed over at the end. -/
theorem Meter.finish_rest (limit : Nat) (h : k ≤ n) : (⟨limit, k, n - k⟩ : Meter).finish =
    if n > limit then .error (.tooLarge limit) else .ok ⟨limit, n, 0⟩ := by
  rw [finish, deliver]
  dsimp only
  rw [Nat.add_sub_of_le h, Nat.sub_self]

namespace Decoder

/-- A turn that fills a chunk. -/
theorem turn_ofPlan_of_lt (hat : (plan bytes).At r)
    (hmore : r.state + chunkSize < (plan bytes).content.size) (limit : Nat) : (ofPlan plan).turn limit r =
      if r.state + chunkSize > limit then .inr (.error s!"decompressed size exceeds {limit} bytes")
      else .inl ⟨r.state + chunkSize, r.pos, r.pos_le, r.out ++ (plan bytes).chunk r.state⟩ := by
  have hchunk : ((plan bytes).chunk r.state).size = chunkSize := by
    rw [Plan.size_chunk, Nat.min_eq_left (Nat.le_of_lt hmore), Nat.add_sub_cancel_left]
  have hmoves : ¬(chunkSize = 0 ∧ r.pos = r.pos) := fun h => absurd h.1 (by decide)
  rw [turn_of_ok (run_ofPlan_of_lt plan hmore)]
  dsimp only
  rw [hat.size_out, hchunk, if_neg Nat.one_ne_zero, if_neg hmoves]
  rfl

/-- A turn where the rest of the content fits into a chunk and the bytes are cut off behind it. -/
theorem turn_ofPlan_of_cut (hat : (plan bytes).At r)
    (hlast : (plan bytes).content.size ≤ r.state + chunkSize) (hcut : (plan bytes).ending = .cut)
    (limit : Nat) : (ofPlan plan).turn limit r =
      if (plan bytes).content.size > limit then .inr (.error s!"decompressed size exceeds {limit} bytes")
      else if (plan bytes).content.size - r.state = 0 ∧ bytes.size = r.pos then
        .inr (.error "zstd: truncated frame")
      else .inl ⟨(plan bytes).content.size, bytes.size, Nat.le_refl _, (plan bytes).content⟩ := by
  have hrun := run_ofPlan_of_le plan hlast
  rw [Plan.lastTurn, hcut] at hrun
  rw [turn_of_ok hrun]
  dsimp only
  rw [hat.size_last hlast, hat.size_chunk_last hlast, if_neg Nat.one_ne_zero]
  congr 3
  exact congrArg (Reading.mk _ _ _) (hat.append_last hlast)

/-- A turn where the rest of the content fits into a chunk and the frame is over behind it. -/
theorem turn_ofPlan_of_whole (hat : (plan bytes).At r)
    (hlast : (plan bytes).content.size ≤ r.state + chunkSize) (hpos : r.pos = 0) {hle : next ≤ bytes.size}
    (hwhole : (plan bytes).ending = .whole next hle) (limit : Nat) : (ofPlan plan).turn limit r =
      if (plan bytes).content.size > limit then .inr (.error s!"decompressed size exceeds {limit} bytes")
      else .inr (told bytes (.ok ((plan bytes).content, next))) := by
  have hrun := run_ofPlan_of_le plan hlast
  have hnext : max r.pos next = next := by rw [hpos, Nat.zero_max]
  rw [Plan.lastTurn, hwhole] at hrun
  rw [turn_of_ok hrun]
  dsimp only
  rw [hat.size_last hlast, if_pos rfl, hat.append_last hlast, told]
  simp only [hnext]
  split_ifs <;> rfl

/-- What the loop comes to while nothing is read is what goes on from the content that is handed over. -/
theorem loop_ofPlan (hat : (plan bytes).At r) (hpos : r.pos = 0) (hlimit : r.state ≤ limit) :
    (ofPlan plan).loop limit r = told bytes ((plan bytes).goOn r.state ⟨limit, r.state, 0⟩) := by
  induction hleft : (plan bytes).content.size - r.state using Nat.strongRecOn generalizing r with
  | ind left ih =>
  obtain hmore | hlast := Nat.lt_or_ge (r.state + chunkSize) (plan bytes).content.size
  · have hturn := turn_ofPlan_of_lt hat hmore limit
    by_cases hlarge : r.state + chunkSize > limit
    · rw [if_pos hlarge] at hturn
      rw [loop_of_inr hturn, Plan.goOn_tooLarge hmore hlarge]
      rfl
    · rw [if_neg hlarge] at hturn
      rw [loop_of_inl hturn, Plan.goOn_chunk hmore]
      have hless : (plan bytes).content.size - (r.state + chunkSize) < left := by
        have hpositive : 0 < chunkSize := by decide
        omega
      exact ih _ hless ⟨hat.append_chunk, Nat.le_of_lt hmore, .inr hpos⟩ hpos (Nat.not_lt.1 hlarge) rfl
  · rw [Plan.goOn_last hlast hlimit, Plan.finish]
    cases hending : (plan bytes).ending with
    | fault f =>
      have hrun := run_ofPlan_of_le plan hlast
      rw [Plan.lastTurn, hending] at hrun
      rw [loop_of_inr (turn_of_error hrun)]
      rfl
    | cut =>
      have hturn := turn_ofPlan_of_cut hat hlast hending limit
      dsimp only
      rw [Meter.finish_rest _ hat.le]
      split_ifs at hturn ⊢ with hlarge hstalls
      · rw [loop_of_inr hturn]
        rfl
      · rw [loop_of_inr hturn]
        rfl
      · -- all is read and written, and the next turn does nothing
        have hat' : (plan bytes).At ⟨(plan bytes).content.size, bytes.size, Nat.le_refl _,
            (plan bytes).content⟩ :=
          ⟨ByteArray.extract_zero_size.symm, Nat.le_refl _, .inl hending⟩
        have hstall := turn_ofPlan_of_cut hat' (Nat.le_add_right _ _) hending limit
        rw [if_neg hlarge, if_pos ⟨Nat.sub_self _, rfl⟩] at hstall
        rw [loop_of_inl hturn, loop_of_inr hstall]
        rfl
    | whole next hnext =>
      have hturn := turn_ofPlan_of_whole hat hlast hpos hending limit
      dsimp only
      rw [Meter.finish_rest _ hat.le]
      split_ifs at hturn ⊢ with hlarge
      · rw [loop_of_inr hturn]
        rfl
      · rw [loop_of_inr hturn, ok_bind]

end Decoder

/-- There is a decoder that works in turns and reads whatever frame some bytes begin with, and with which the
loop comes to what `decode` comes to, under every limit and from every state. -/
theorem exists_decoder : ∃ d : Decoder Nat, ∀ bytes, d.Streams bytes ∧ ∀ s limit,
    d.decode s limit bytes =
      (decode limit bytes).mapError fun fault => (UnpackFault.frame fault).message := by
  choose plan hplan using readFrame_follows
  refine ⟨Decoder.ofPlan plan, fun bytes => ⟨streams_ofPlan (Plan.tells (hplan bytes)), fun s limit => ?_⟩⟩
  have hstart : (plan bytes).At (Reading.start 0 bytes) :=
    ⟨ByteArray.extract_same.symm, Nat.zero_le _, .inr rfl⟩
  rw [← told_readFrame]
  exact (Decoder.loop_ofPlan hstart rfl (Nat.zero_le _)).trans
    (congrArg (told bytes) (hplan bytes limit).symm)

end ColumnVault.Zstd
