import ColumnVault.Proofs.Packing.RoundTrip

/-! When a payload is packed. The decision is exact: a payload is packed if the policy lets it be, it is
within the limit for unpacking, and its frame saves a tenth of it. The sizes of such payloads are small
enough for the decision to be the same in 64-bit words, and whatever is decided can be undone. -/

namespace ColumnVault.Packing

variable {size packed : Nat}

/-- A tenth is saved, in whole numbers. -/
theorem savesEnough_iff :
    savesEnough size packed = true ↔ 10 * packed ≤ 9 * size ∧ packed < size := by
  rw [savesEnough, Bool.and_eq_true, decide_eq_true_eq, decide_eq_true_eq, minSaving]
  omega

/-! ### The decision in words -/

/-- `savesEnough` as a machine computes it: differences and products of 64-bit words wrap around. -/
def savesEnoughInWords (plain packed : UInt64) : Bool :=
  packed < plain && (plain - packed) * 100 ≥ plain * 10

/-- Nothing wraps for a payload that may be packed, whatever the size of its frame. -/
theorem savesEnoughInWords_eq (hsize : size ≤ maxContent) (hpacked : packed < UInt64.size) :
    savesEnoughInWords (.ofNat size) (.ofNat packed) = savesEnough size packed := by
  have hmax : maxContent * 100 < UInt64.size := by decide
  rw [Bool.eq_iff_iff, savesEnough_iff]
  have hs : (UInt64.ofNat size).toNat = size := UInt64.toNat_ofNat_of_lt (by omega)
  have hp : (UInt64.ofNat packed).toNat = packed := UInt64.toNat_ofNat_of_lt hpacked
  have hlt : UInt64.ofNat packed < UInt64.ofNat size ↔ packed < size := by
    rw [UInt64.lt_iff_toNat_lt, hs, hp]
  simp only [savesEnoughInWords, Bool.and_eq_true, decide_eq_true_eq, hlt]
  refine and_comm.trans (and_congr_left fun hsmaller => ?_)
  have hdifference : (UInt64.ofNat size - UInt64.ofNat packed).toNat = size - packed := by
    rw [UInt64.toNat_sub_of_le _ _ (UInt64.le_iff_toNat_le.2 (by omega)), hs, hp]
  have hleft : ((UInt64.ofNat size - UInt64.ofNat packed) * 100).toNat = (size - packed) * 100 := by
    rw [UInt64.toNat_mul, hdifference]
    exact Nat.mod_eq_of_lt (by show (size - packed) * 100 < UInt64.size; omega)
  have hright : (UInt64.ofNat size * 10).toNat = size * 10 := by
    rw [UInt64.toNat_mul, hs]
    exact Nat.mod_eq_of_lt (by show size * 10 < UInt64.size; omega)
  rw [ge_iff_le, UInt64.le_iff_toNat_le, hleft, hright]
  omega

/-! ### The decision -/

section

variable [Zstd.Encoder]

/-- What is done with a payload: it is packed, into the frame that the encoder gives, exactly if the policy is
for packing it with the one algorithm there is, its size is between the threshold and the limit for
unpacking, and the frame is smaller by at least a tenth, as it also is when computed in 64-bit words;
otherwise it stays as it is. Unpacking always gives it back: no payload is packed that is over the limit. -/
theorem pack_exact (policy : Policy) (data : ByteArray) :
    ((pack policy data).2 = .none ∨ (pack policy data).2 = .zstd) ∧
    ((pack policy data).2 = .zstd ↔ policy.enabled = true ∧ policy.algorithm = .zstd ∧
      policy.threshold ≤ data.size ∧ data.size ≤ 64 * 1024 * 1024 ∧
      ∃ frame, Zstd.Encoder.encode? data = some frame ∧
        10 * frame.size ≤ 9 * data.size ∧ frame.size < data.size) ∧
    ((pack policy data).2 = .zstd → Zstd.Encoder.encode? data = some (pack policy data).1) ∧
    ((pack policy data).2 = .none → (pack policy data).1 = data) ∧
    unpack (pack policy data).2 (pack policy data).1 = .ok data ∧
    (data.size ≤ maxContent → ∀ size < UInt64.size,
      savesEnoughInWords (.ofNat data.size) (.ofNat size) = savesEnough data.size size) := by
  have hunpack : unpack (pack policy data).2 (pack policy data).1 = .ok data := by
    have hholds := unpack_eq_ok_iff.2 (pack_holds policy data)
    rwa [Algorithm.ofFlag_flag] at hholds
  have hwords (hsize : data.size ≤ maxContent) : ∀ size < UInt64.size,
      savesEnoughInWords (.ofNat data.size) (.ofNat size) = savesEnough data.size size :=
    fun _ => savesEnoughInWords_eq hsize
  obtain ⟨frame, hframe, hpack, hcandidate, hsaves⟩ | ⟨hpack, hspares⟩ := pack_decision policy data
  · rw [hpack] at hunpack ⊢
    obtain ⟨henabled, halgorithm, hthreshold, hmax⟩ := isCandidate_iff.1 hcandidate
    exact ⟨.inr rfl, iff_of_true rfl ⟨henabled, halgorithm, hthreshold, hmax, frame, hframe,
      savesEnough_iff.1 hsaves⟩, fun _ => hframe, nofun, hunpack, hwords⟩
  · rw [hpack] at hunpack ⊢
    refine ⟨.inl rfl, iff_of_false nofun ?_, nofun, fun _ => rfl, hunpack, hwords⟩
    rintro ⟨henabled, halgorithm, hthreshold, hmax, frame, hframe, hsaves⟩
    have hspared := hspares frame hframe
      (isCandidate_iff.2 ⟨henabled, halgorithm, hthreshold, hmax⟩)
    rw [savesEnough_iff.2 hsaves] at hspared
    cases hspared

end

/-- A payload of the very size of the threshold, which is packed into less than half of it. -/
theorem pack_exact_at_threshold :
    let policy := Policy.initial.withThreshold 40
    let data := Bytes.replicate 40 97
    let frame := [0x28, 0xb5, 0x2f, 0xfd, 32, 40, 69, 0, 0, 16, 97, 97, 1, 0, 31, 128, 5].toByteArray
    Zstd.Encoder.encode? data = some frame ∧ pack policy data = (frame, .zstd) ∧
      unpack .zstd frame = .ok data := by
  intro policy data frame
  have hframe : Zstd.Encoder.encode? data = some frame := by decide +kernel
  obtain ⟨-, hpacked, hout, -, hunpack, -⟩ := pack_exact policy data
  have hflag : (pack policy data).2 = .zstd :=
    hpacked.2 ⟨rfl, rfl, by decide, by decide, frame, hframe, by decide⟩
  have hpack : pack policy data = (frame, .zstd) :=
    Prod.ext (Option.some.inj ((hout hflag).symm.trans hframe)) hflag
  rw [hpack] at hunpack
  exact ⟨hframe, hpack, hunpack⟩

/-- A frame that saves exactly a tenth is kept, and one that is a byte larger is not. -/
example : savesEnough 100 90 = true ∧ savesEnough 100 91 = false := by decide

end ColumnVault.Packing
