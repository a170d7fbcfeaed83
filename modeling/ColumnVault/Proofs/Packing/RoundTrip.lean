import ColumnVault.Packing.Basic
import ColumnVault.Proofs.Zstd.Limit

/-! Packed bytes and the content that they hold, as the flag of an envelope tells. -/

namespace ColumnVault.Packing

open Zstd (IsFrame)

/-- Some bytes hold a content: as they are under the first flag, and as one frame within the limit
under the second. No other flag has a meaning. -/
def Holds (flag : UInt8) (packed content : ByteArray) : Prop :=
  flag = 0 ∧ packed = content ∨
    flag = 1 ∧ IsFrame packed content ∧ content.size ≤ maxContent

theorem unpack_zstd_eq_ok_iff {packed content : ByteArray} :
    unpack .zstd packed = .ok content ↔ IsFrame packed content ∧ content.size ≤ maxContent := by
  rw [← Zstd.decode_eq_ok_iff]
  simp only [unpack]
  cases Zstd.decode maxContent packed <;> simp

/-- Reading the flag and undoing what it says gives the content that is held, and nothing else. -/
theorem unpack_eq_ok_iff {flag : UInt8} {packed content : ByteArray} :
    (Algorithm.ofFlag flag >>= fun a => unpack a packed) = .ok content ↔
      Holds flag packed content := by
  rw [Algorithm.ofFlag, Holds]
  split_ifs with h₀ h₁ h₂
  · subst h₀
    simp [unpack]
  · subst h₁
    simp [unpack_zstd_eq_ok_iff]
  · subst h₂
    simp [unpack]
  · simp [h₀, h₁]

theorem isCandidate_iff {policy : Policy} {size : Nat} : isCandidate policy size = true ↔
    policy.enabled = true ∧ policy.algorithm = .zstd ∧ policy.threshold ≤ size ∧ size ≤ maxContent := by
  have hsupported : policy.algorithm.isSupported = true ↔ policy.algorithm = .zstd := by
    cases policy.algorithm <;> simp [Algorithm.isSupported]
  simp only [isCandidate, Bool.and_eq_true, decide_eq_true_eq, hsupported]
  tauto

section

variable [Zstd.Encoder]

/-- A payload is packed if it may be and its frame saves enough; otherwise it stays as it is. -/
theorem pack_decision (policy : Policy) (data : ByteArray) :
    (∃ frame, Zstd.Encoder.encode? data = some frame ∧ pack policy data = (frame, .zstd) ∧
        isCandidate policy data.size = true ∧ savesEnough data.size frame.size = true) ∨
      pack policy data = (data, .none) ∧ ∀ frame, Zstd.Encoder.encode? data = some frame →
        isCandidate policy data.size = true → savesEnough data.size frame.size = false := by
  rw [pack]
  split_ifs with hcandidate
  · cases hframe : Zstd.Encoder.encode? data with
    | none =>
      refine .inr ⟨rfl, ?_⟩
      rintro _ ⟨⟩
    | some frame =>
      cases hsaves : savesEnough data.size frame.size with
      | true => exact .inl ⟨frame, rfl, by simp [hsaves], hcandidate, hsaves⟩
      | false =>
        refine .inr ⟨by simp [hsaves], ?_⟩
        rintro _ ⟨⟩ -
        exact hsaves
  · exact .inr ⟨rfl, fun _ _ h => absurd h hcandidate⟩

/-- Whatever the policy, the packed bytes hold the payload under their flag. -/
theorem pack_holds (policy : Policy) (data : ByteArray) :
    Holds (pack policy data).2.flag (pack policy data).1 data := by
  obtain ⟨frame, hframe, hpack, hcandidate, -⟩ | ⟨hpack, -⟩ := pack_decision policy data
  · obtain ⟨-, -, -, hsize⟩ := isCandidate_iff.1 hcandidate
    rw [hpack]
    exact .inr ⟨rfl, Zstd.Encoder.isFrame_of_encode? hframe, hsize⟩
  · rw [hpack]
    exact .inl ⟨rfl, rfl⟩

end

end ColumnVault.Packing
