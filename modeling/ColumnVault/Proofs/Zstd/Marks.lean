import ColumnVault.Proofs.Zstd.Limit

/-! What a frame with content begins with. The marks of all formats have the same second byte, and no
text begins with it. -/

namespace ColumnVault.Zstd

open Bytes

/-- The second byte of every mark but that of a frame that is skipped. -/
def markByte : UInt8 := 0xb5

/-- The second of four bytes that make a word. -/
theorem byteAt_one_eq (bytes : ByteArray) :
    byteAt bytes 1 = (word32LE bytes 0 >>> 8).toUInt8 := by
  apply UInt8.toBitVec_inj.1
  ext i hi
  have h₀ : ¬8 + i < 8 := by omega
  have h₁ : 8 + i < 16 := by omega
  have h₂ : 8 + i < 24 := by omega
  have h₃ : 8 + i < 32 := by omega
  have h₄ : i < 32 := by omega
  simp [word32LE, h₀, h₁, h₂, h₃, h₄, BitVec.getLsbD_eq_getElem hi]

/-- Bytes that begin a frame which is not skipped have the second byte of a mark. -/
theorem byteAt_one_of_readStart {bytes : ByteArray} {start : Start} (h : readStart bytes = .ok start)
    (hcut : start ≠ .cut) (hskip : ∀ size, start ≠ .skippable size) :
    byteAt bytes 1 = markByte := by
  rw [byteAt_one_eq]
  simp only [readStart] at h
  split_ifs at h with hshort hmagic hmark hskipped
  · cases h
    exact absurd rfl hcut
  · rw [hmark]
    rfl
  · cases h
    exact absurd rfl hcut
  · cases h
    exact absurd rfl (hskip _)
  · -- an early format is told by its mark
    split at h
    · next format hformat =>
      have := List.find?_some hformat
      rw [← of_decide_eq_true this]
      cases format <;> rfl
    · cases h

/-- A frame with content begins with a mark; a frame without one is read as no content at all. -/
theorem IsFrame.empty_or_mark {bytes content : ByteArray} (h : IsFrame bytes content) :
    content = ByteArray.empty ∨ byteAt bytes 1 = markByte := by
  obtain ⟨limit, h⟩ := h
  have hread := decode_eq_ok_iff_readFrame.1 h
  rw [readFrame] at hread
  obtain ⟨start, hstart, hrest⟩ := bind_eq_ok hread
  have hstart := liftCodec_eq_ok_iff.1 hstart
  cases start with
  | cut => cases hrest
  | skippable size =>
    left
    dsimp only at hrest
    split_ifs at hrest
    · cases hrest
    · rw [pure_eq_ok, Except.ok.injEq, Prod.mk.injEq] at hrest
      exact hrest.1.symm
  | early format => exact .inr (byteAt_one_of_readStart hstart (by simp) (by simp))
  | frame header => exact .inr (byteAt_one_of_readStart hstart (by simp) (by simp))

/-- Bytes are a frame with one content at most. -/
theorem IsFrame.unique {bytes content content' : ByteArray} (h : IsFrame bytes content)
    (h' : IsFrame bytes content') : content = content' := by
  have hd : decode (max content.size content'.size) bytes = .ok content :=
    decode_eq_ok_iff.2 ⟨h, by omega⟩
  have hd' : decode (max content.size content'.size) bytes = .ok content' :=
    decode_eq_ok_iff.2 ⟨h', by omega⟩
  rw [hd] at hd'
  exact Except.ok.inj hd'

end ColumnVault.Zstd
