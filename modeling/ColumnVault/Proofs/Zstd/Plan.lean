import ColumnVault.Proofs.Zstd.Early.Growth
import ColumnVault.Proofs.Zstd.Growth

/-! What reading a frame comes to, told without a limit. For all bytes there is a content and an ending such
that reading them under any limit is handing over the content and then coming to the ending: a fault, the
end of the bytes within a frame, or the end of the frame. -/

namespace ColumnVault.Zstd

variable {bytes out content : ByteArray} {m : Meter} {limit k n : Nat}

/-! ### Handing over in parts -/

/-- No more than a chunk waits, and no more is handed over than the limit. -/
structure Meter.Sound (m : Meter) : Prop where
  filling_le : m.filling ≤ chunkSize
  delivered_le : m.delivered ≤ m.limit

theorem Meter.sound_start (limit : Nat) : (Meter.start limit).Sound :=
  ⟨Nat.zero_le _, Nat.zero_le _⟩

/-- How many bytes of `n` are handed over before more come. -/
def inChunks (n : Nat) : Nat :=
  (n - 1) / chunkSize * chunkSize

theorem inChunks_le (n : Nat) : inChunks n ≤ n - 1 :=
  Nat.div_mul_le_self _ _

theorem le_inChunks (n : Nat) : n ≤ inChunks n + chunkSize := by
  have hmod := Nat.mod_lt (n - 1) (show 0 < chunkSize by decide)
  have hdiv := Nat.div_add_mod' (n - 1) chunkSize
  rw [inChunks]
  omega

theorem inChunks_of_le (h : n ≤ chunkSize) : inChunks n = 0 := by
  have hpos : 0 < chunkSize := by decide
  rw [inChunks, Nat.div_eq_of_lt (by omega), Nat.zero_mul]

theorem inChunks_of_lt (h : chunkSize < n) : inChunks n = chunkSize + inChunks (n - chunkSize) := by
  have hsub : n - 1 = n - chunkSize - 1 + chunkSize := by omega
  rw [inChunks, hsub, Nat.add_div_right _ (by decide), Nat.succ_mul, Nat.add_comm]
  rfl

/-- What is handed over first leaves the rest as it would be on its own. -/
theorem inChunks_add (n k : Nat) : inChunks (n + k) = inChunks n + inChunks (n - inChunks n + k) := by
  have hle := inChunks_le n
  by_cases hn : n = 0
  · subst hn
    have hzero : inChunks 0 = 0 := inChunks_of_le (Nat.zero_le _)
    rw [hzero, Nat.zero_add, Nat.zero_add]
  · have hsum : n + k - 1 = n - inChunks n + k - 1 + (n - 1) / chunkSize * chunkSize := by
      rw [inChunks] at hle ⊢
      omega
    rw [inChunks, hsum, Nat.add_mul_div_right _ _ (by decide), Nat.add_mul, Nat.add_comm]
    rfl

theorem Meter.write_eq (m : Meter) (n : Nat) : m.write n =
    if m.delivered + inChunks (m.filling + n) > m.limit then .error (.tooLarge m.limit)
    else .ok ⟨m.limit, m.delivered + inChunks (m.filling + n),
      m.filling + n - inChunks (m.filling + n)⟩ :=
  rfl

theorem Meter.Sound.write_zero (h : m.Sound) : m.write 0 = .ok m := by
  rw [write_eq, Nat.add_zero, inChunks_of_le h.filling_le, Nat.add_zero,
    if_neg (Nat.not_lt.2 h.delivered_le)]
  rfl

theorem Meter.Sound.of_write {m' : Meter} (h : m.write n = .ok m') : m'.Sound := by
  rw [write_eq] at h
  split_ifs at h with hlimit
  cases h
  have hrest := le_inChunks (m.filling + n)
  exact ⟨by dsimp only; omega, Nat.not_lt.1 hlimit⟩

/-- Content can be written in parts. -/
theorem Meter.write_add (m : Meter) (n k : Nat) :
    m.write (n + k) = m.write n >>= fun m' => m'.write k := by
  have hsum := inChunks_add (m.filling + n) k
  have hle := inChunks_le (m.filling + n)
  rw [Nat.add_assoc] at hsum
  rw [write_eq m n]
  split_ifs with hlimit
  · rw [error_bind, write_eq, if_pos (by omega)]
  · rw [ok_bind, write_eq, write_eq, hsum, Nat.add_assoc]
    dsimp only
    split_ifs
    · rfl
    · congr 2
      omega

/-- Content that is handed over chunk by chunk meets the limit no sooner than all of it would. -/
theorem Meter.write_finish (limit n : Nat) (r : Except ReadFault (ByteArray × Nat)) :
    ((Meter.start limit).write n >>= fun m => m.finish >>= fun _ => r) =
      if n > limit then .error (.tooLarge limit) else r := by
  have hle : inChunks n ≤ n := Nat.le_trans (inChunks_le n) (Nat.sub_le n 1)
  rw [write_eq, start, Nat.zero_add, Nat.zero_add]
  by_cases hlarge : n > limit
  · rw [if_pos hlarge]
    split_ifs with hchunks
    · rfl
    · rw [ok_bind, finish, deliver]
      dsimp only
      rw [Nat.add_sub_of_le hle, if_pos hlarge]
      rfl
  · rw [if_neg hlarge, if_neg (by dsimp only; omega), ok_bind, finish, deliver]
    dsimp only
    rw [Nat.add_sub_of_le hle, if_neg hlarge]
    rfl

/-! ### Plans -/

/-- How the reading of some bytes ends once the content before is written. -/
inductive Ending (bytes : ByteArray) where
  | fault (f : Fault)
  /-- The bytes end within a frame. -/
  | cut
  | whole (next : Nat) (h : next ≤ bytes.size)

/-- What is written for some bytes, and how their reading ends. -/
structure Plan (bytes : ByteArray) where
  content : ByteArray
  ending : Ending bytes

/-- Comes to the ending with a meter that has counted the content. -/
def Plan.finish (p : Plan bytes) (m : Meter) : Except ReadFault (ByteArray × Nat) :=
  match p.ending with
  | .fault f => .error (.codec f)
  | .cut => m.finish >>= fun _ => .error .truncated
  | .whole next _ => m.finish >>= fun _ => .ok (p.content, next)

/-- Hands over the content behind what was counted, and comes to the ending. -/
def Plan.goOn (p : Plan bytes) (counted : Nat) (m : Meter) : Except ReadFault (ByteArray × Nat) :=
  m.write (p.content.size - counted) >>= p.finish

/-- A plan comes to a content exactly if it ends with a frame and the content is within the limit. -/
theorem Plan.goOn_start_eq_ok_iff {p : Plan bytes} {next : Nat} :
    p.goOn 0 (Meter.start limit) = .ok (content, next) ↔
      p.content = content ∧ content.size ≤ limit ∧ ∃ h, p.ending = .whole next h := by
  obtain ⟨x, ending⟩ := p
  have hfinish := Meter.write_finish limit x.size
  cases ending with
  | fault f =>
    refine iff_of_false (fun h => ?_) ?_
    · obtain ⟨_, -, ⟨⟩⟩ := bind_eq_ok h
    · rintro ⟨-, -, _, ⟨⟩⟩
  | cut =>
    refine iff_of_false (fun h => ?_) ?_
    · rw [show goOn ⟨x, .cut⟩ 0 _ = _ from hfinish (.error .truncated)] at h
      split_ifs at h
    · rintro ⟨-, -, _, ⟨⟩⟩
  | whole next' hle =>
    rw [show goOn ⟨x, .whole next' hle⟩ 0 _ = _ from hfinish (.ok (x, next'))]
    split_ifs with hlarge
    · refine iff_of_false ?_ ?_
      · rintro ⟨⟩
      · rintro ⟨rfl, hwithin, -⟩
        exact Nat.not_lt.2 hwithin hlarge
    · constructor
      · intro h
        obtain ⟨rfl, rfl⟩ := Prod.mk.inj (Except.ok.inj h)
        exact ⟨rfl, Nat.not_lt.1 hlarge, hle, rfl⟩
      · rintro ⟨rfl, -, _, ⟨⟩⟩
        rfl

/-- Reading that goes on from some content follows a plan, whatever the limit is. -/
def Planned (bytes out : ByteArray) (f : Meter → Except ReadFault (ByteArray × Nat)) : Prop :=
  ∃ p : Plan bytes, out.size ≤ p.content.size ∧ ∀ m, m.Sound → f m = p.goOn out.size m

namespace Planned

variable {f g : Meter → Except ReadFault (ByteArray × Nat)}

/-- Nothing more is written. -/
theorem here (e : Ending bytes) (h : ∀ m, f m = Plan.finish ⟨out, e⟩ m) : Planned bytes out f := by
  refine ⟨⟨out, e⟩, Nat.le_refl _, fun m hm => ?_⟩
  rw [h, Plan.goOn, Nat.sub_self, hm.write_zero, ok_bind]

theorem fault (e : Fault) : Planned bytes out fun _ => .error (.codec e) :=
  here (.fault e) fun _ => rfl

theorem cut : Planned bytes out fun m => m.finish >>= fun _ => .error .truncated :=
  here .cut fun _ => rfl

theorem whole {next : Nat} (h : next ≤ bytes.size) :
    Planned bytes out fun m => m.finish >>= fun _ => .ok (out, next) :=
  here (.whole next h) fun _ => rfl

theorem ite {c : Prop} [Decidable c] (hf : c → Planned bytes out f) (hg : ¬c → Planned bytes out g) :
    Planned bytes out fun m => if c then f m else g m := by
  by_cases h : c
  · simpa only [h, if_true] using hf h
  · simpa only [h, if_false] using hg h

theorem bind {α : Type} {r : Except Fault α} {k : α → Meter → Except ReadFault (ByteArray × Nat)}
    (h : ∀ a, r = .ok a → Planned bytes out (k a)) :
    Planned bytes out fun m => liftCodec r >>= fun a => k a m := by
  cases r with
  | error e => exact fault e
  | ok a => exact h a rfl

theorem write {after : ByteArray} (h : Planned bytes after f) (hsize : out.size + n = after.size) :
    Planned bytes out fun m => m.write n >>= f := by
  obtain ⟨p, hle, hp⟩ := h
  refine ⟨p, by omega, fun m _ => ?_⟩
  have hsum : p.content.size - out.size = n + (p.content.size - after.size) := by omega
  show m.write n >>= f = p.goOn out.size m
  rw [Plan.goOn, hsum, Meter.write_add]
  cases hw : m.write n with
  | error e => rfl
  | ok m' => exact hp m' (.of_write hw)

/-- Writing what came behind the content so far. -/
theorem write_behind {after : ByteArray} (hle : out.size ≤ after.size) (h : Planned bytes after f) :
    Planned bytes out fun m => m.write (after.size - out.size) >>= f :=
  h.write (Nat.add_sub_of_le hle)

end Planned

/-! ### Frames follow plans -/

/-- The end of a frame behind its last block, where the checksum is compared if there is one. -/
def frameEnd (bytes : ByteArray) (checksum : Bool) (next : Nat) (out : ByteArray) (m : Meter) :
    Except ReadFault (ByteArray × Nat) :=
  if checksum then
    if bytes.size < next + 4 then m.finish >>= fun _ => .error .truncated
    else if (Xxh64.hash out).toUInt32 ≠ Bytes.word32LE bytes next then
      .error (.codec .checksumMismatch)
    else m.finish >>= fun _ => .ok (out, next + 4)
  else m.finish >>= fun _ => .ok (out, next)

theorem frameEnd_planned {next : Nat} (checksum : Bool) (hnext : next ≤ bytes.size) :
    Planned bytes out (frameEnd bytes checksum next out) := by
  refine .ite (fun _ => .ite (fun _ => .cut) fun hroom => ?_) fun _ => .whole hnext
  exact .ite (fun _ => .fault _) fun _ => .whole (Nat.not_lt.1 hroom)

/-- The blocks of a frame follow a plan. The fuel lasts, for each block takes bytes of those that are left. -/
theorem decodeBlocks_planned (bytes : ByteArray) (header : Header) (room : Room) :
    ∀ (fuel pos : Nat) (memory : Memory) (out : ByteArray), 0 < fuel → bytes.size < pos + fuel →
      Planned bytes out fun m => decodeBlocks bytes header room fuel pos memory m out
  | 0, pos, memory, out, hpos, _ => absurd hpos (Nat.lt_irrefl 0)
  | fuel + 1, pos, memory, out, _, hfuel => by
    simp only [decodeBlocks, throw_eq_error, error_bind, ok_bind, pure_eq_ok]
    set h := readBlockHeader bytes pos
    refine .ite (fun _ => .cut) fun hheader => .ite (fun _ => .fault _) fun _ => ?_
    refine .ite (fun hcut => .ite (fun _ => .fault _) fun _ => ?_) fun hbody => ?_
    · -- of a block that is cut off, only bytes that stand as they are get written
      set part := if h.kind = .raw then bytes.size - (pos + 3) else 0 with hpart
      have hcut : Planned bytes (out ++ bytes.extract (pos + 3) (pos + 3 + part)) _ := .cut
      refine hcut.write ?_
      rw [ByteArray.size_append, ByteArray.size_extract, hpart]
      split_ifs <;> omega
    have hnext : pos + 3 + h.bodySize ≤ bytes.size := Nat.not_lt.1 hbody
    have hless : bytes.size < pos + 3 + h.bodySize + fuel := by omega
    refine .ite (fun _ => ?_) fun _ => .bind fun e hdecode => ?_
    · refine .ite (fun _ => .write_behind (Nat.le_refl _) ?_) fun _ => .ite (fun _ => .fault _) fun _ => ?_
      · exact decodeBlocks_planned bytes header room fuel _ _ _ (by omega) hless
      · exact .write_behind (Nat.le_refl _) (frameEnd_planned _ hnext)
    · obtain ⟨after, left⟩ := e
      have hgrow : out.size ≤ after.size := decodeBody_grows _ _ _ _ _ _ _ hdecode
      refine .ite (fun _ => .write_behind hgrow ?_) fun _ => .ite (fun _ => .fault _) fun _ => ?_
      · exact decodeBlocks_planned bytes header room fuel _ _ _ (by omega) hless
      · exact .write_behind hgrow (frameEnd_planned _ hnext)

theorem Early.decodeBlocks_planned (f : Early.Format) (bytes : ByteArray) (header : Early.Header) :
    ∀ (fuel pos : Nat) (memory : Early.Memory) (buffer : Early.Buffer) (out : ByteArray),
      buffer.Filled → 0 < fuel → bytes.size < pos + fuel → Planned bytes out fun m =>
        Early.decodeBlocks f bytes header fuel pos memory buffer m out
  | 0, pos, memory, buffer, out, _, hpos, _ => absurd hpos (Nat.lt_irrefl 0)
  | fuel + 1, pos, memory, buffer, out, hfilled, _, hfuel => by
    simp only [Early.decodeBlocks, throw_eq_error, error_bind, pure_eq_ok]
    set h := readBlockHeader bytes pos
    refine .ite (fun _ => .cut) fun hheader => .ite (fun _ => ?_) fun _ => ?_
    · exact .ite (fun _ => .fault _) fun _ => .whole (Nat.not_lt.1 hheader)
    refine .ite (fun _ => .ite (fun _ => .fault _) fun _ => .cut) fun hbody => ?_
    have hnext : pos + 3 + h.bodySize ≤ bytes.size := Nat.not_lt.1 hbody
    have hless : bytes.size < pos + 3 + h.bodySize + fuel := by omega
    refine .bind fun e hdecode => ?_
    obtain ⟨after, left⟩ := e
    have hgrow := Early.decodeBody_grows _ _ _ _ _ hfilled _ hdecode
    refine .ite (fun _ => ?_) fun _ => ?_
    · exact decodeBlocks_planned f bytes header fuel _ _ _ _ hgrow.filled (by omega) hless
    · -- what was put into the buffer is what is written
      have hsize : (out ++ after.cells.extract buffer.pos after.pos).size =
          out.size + (after.pos - buffer.pos) := by
        have hle : after.pos ≤ after.cells.size := hgrow.filled
        rw [ByteArray.size_append, ByteArray.size_extract, Nat.min_eq_left hle]
      refine .write ?_ hsize.symm
      exact decodeBlocks_planned f bytes header fuel _ _ _ _
        (Early.Buffer.turnOver_filled hgrow.filled _) (by omega) hless

/-- Reading under a limit follows a plan, the same for every limit. -/
def Follows (bytes : ByteArray) (f : Nat → Except ReadFault (ByteArray × Nat)) : Prop :=
  ∃ p : Plan bytes, ∀ limit, f limit = p.goOn 0 (Meter.start limit)

namespace Follows

theorem of_planned {f : Meter → Except ReadFault (ByteArray × Nat)}
    (h : Planned bytes ByteArray.empty f) : Follows bytes fun limit => f (Meter.start limit) := by
  obtain ⟨p, -, hp⟩ := h
  exact ⟨p, fun limit => hp _ (Meter.sound_start limit)⟩

theorem fault (e : Fault) : Follows bytes fun _ => .error (.codec e) :=
  of_planned (.fault e)

/-- Nothing is handed over before the first byte. -/
theorem of_finish {r : Except ReadFault (ByteArray × Nat)}
    (h : Planned bytes ByteArray.empty fun m => m.finish >>= fun _ => r) : Follows bytes fun _ => r := by
  obtain ⟨p, hp⟩ := of_planned h
  refine ⟨p, fun limit => Eq.trans ?_ (hp limit)⟩
  have hfinish : (Meter.start limit).finish = .ok (Meter.start limit) := by
    simp [Meter.finish, Meter.deliver, Meter.start]
  show r = (Meter.start limit).finish >>= fun _ => r
  rw [hfinish, ok_bind]

theorem cut : Follows bytes fun _ => .error .truncated :=
  of_finish .cut

theorem whole {next : Nat} (h : next ≤ bytes.size) :
    Follows bytes fun _ => .ok (ByteArray.empty, next) :=
  of_finish (.whole h)

theorem ite {c : Prop} [Decidable c] {f g : Nat → Except ReadFault (ByteArray × Nat)}
    (hf : c → Follows bytes f) (hg : ¬c → Follows bytes g) :
    Follows bytes fun limit => if c then f limit else g limit := by
  by_cases h : c
  · simpa only [h, if_true] using hf h
  · simpa only [h, if_false] using hg h

end Follows

theorem Early.readFrame_follows (f : Early.Format) (bytes : ByteArray) :
    Follows bytes fun limit => Early.readFrame f limit bytes := by
  simp only [Early.readFrame]
  cases f.readHeader bytes with
  | error e => exact .fault e
  | ok header? =>
    cases header? with
    | none => exact .cut
    | some header =>
      have hempty : (Early.Buffer.empty header.buffer).Filled := Nat.zero_le _
      exact .of_planned (Early.decodeBlocks_planned f bytes header _ _ _ _ ByteArray.empty hempty
        (Nat.succ_pos _) (by omega))

/-- What comes of reading the frame that some bytes begin with is told without a limit. -/
theorem readFrame_follows (bytes : ByteArray) : Follows bytes fun limit => readFrame limit bytes := by
  simp only [readFrame, throw_eq_error, error_bind, pure_eq_ok]
  cases readStart bytes with
  | error e => exact .fault e
  | ok start =>
    cases start with
    | cut => exact .cut
    | skippable size => exact .ite (fun _ => .cut) fun hsize => .whole (Nat.not_lt.1 hsize)
    | early format => exact Early.readFrame_follows format bytes
    | frame header =>
      refine .ite (fun _ => .fault _) fun _ => .ite (fun _ => .fault _) fun _ => ?_
      exact .of_planned (decodeBlocks_planned bytes header _ _ _ _ ByteArray.empty (Nat.succ_pos _)
        (by omega))

end ColumnVault.Zstd
