import ColumnVault.Proofs.Zstd.Plan
import ColumnVault.Zstd.Encode

/-! What a limit on the content does to decoding: it refuses contents that are larger, and changes
nothing else. So bytes are a frame, or not, whatever the limit. -/

namespace ColumnVault.Zstd

theorem liftCodec_eq_ok_iff {α : Type} {r : Except Fault α} {a : α} :
    liftCodec r = .ok a ↔ r = .ok a := by
  cases r <;> simp [liftCodec]

/-- Reading under a limit: one that suffices for the content may be any other that does. -/
def Limited (f : Nat → Except ReadFault (ByteArray × Nat)) : Prop :=
  ∀ limit x next, f limit = .ok (x, next) →
    x.size ≤ limit ∧ ∀ limit', x.size ≤ limit' → f limit' = .ok (x, next)

/-- A plan is the same under every limit. -/
theorem Follows.limited {bytes : ByteArray} {f : Nat → Except ReadFault (ByteArray × Nat)}
    (h : Follows bytes f) : Limited f := by
  obtain ⟨p, hp⟩ := h
  intro limit x next hx
  rw [hp, Plan.goOn_start_eq_ok_iff] at hx
  obtain ⟨hcontent, hle, hwhole⟩ := hx
  refine ⟨hle, fun limit' hle' => ?_⟩
  rw [hp, Plan.goOn_start_eq_ok_iff]
  exact ⟨hcontent, hle', hwhole⟩

theorem readFrame_limited (bytes : ByteArray) : Limited fun limit => readFrame limit bytes :=
  (readFrame_follows bytes).limited

/-- What is decoded is a frame that ends where the bytes end. -/
theorem decode_eq_ok_iff_readFrame {limit : Nat} {bytes content : ByteArray} :
    decode limit bytes = .ok content ↔ readFrame limit bytes = .ok (content, bytes.size) := by
  rw [decode]
  constructor
  · intro h
    obtain ⟨⟨x, next⟩, hread, h⟩ := bind_eq_ok h
    by_cases hnext : next = bytes.size
    · simp only [hnext, ne_eq, not_true_eq_false, if_false, pure_eq_ok, Except.ok.injEq] at h
      rw [hread, h, hnext]
    · simp [hnext] at h
  · intro h
    simp [h]

/-- Decoding under a limit accepts exactly the frames whose content is within it. -/
theorem decode_eq_ok_iff {limit : Nat} {bytes content : ByteArray} :
    decode limit bytes = .ok content ↔ IsFrame bytes content ∧ content.size ≤ limit := by
  constructor
  · intro h
    exact ⟨⟨limit, h⟩, (readFrame_limited bytes limit _ _ (decode_eq_ok_iff_readFrame.1 h)).1⟩
  · rintro ⟨⟨limit', h⟩, hle⟩
    obtain ⟨-, hany⟩ := readFrame_limited bytes limit' _ _ (decode_eq_ok_iff_readFrame.1 h)
    exact decode_eq_ok_iff_readFrame.2 (hany limit hle)

/-- The check of a frame refuses none that is a frame of the data, however large they are. -/
theorem checkedFrame?_eq_some_iff {data frame : ByteArray} :
    checkedFrame? data = some frame ↔ frame = frameOf data ∧ IsFrame frame data := by
  have hchecked : IsFrame (frameOf data) data ↔ decode data.size (frameOf data) = .ok data := by
    rw [decode_eq_ok_iff, and_iff_left (Nat.le_refl _)]
  constructor
  · intro h
    refine ⟨?_, isFrame_of_checkedFrame? h⟩
    simp only [checkedFrame?] at h
    split at h
    · split_ifs at h
      exact (Option.some.inj h).symm
    · cases h
  · rintro ⟨rfl, h⟩
    simp [checkedFrame?, hchecked.1 h]

end ColumnVault.Zstd
