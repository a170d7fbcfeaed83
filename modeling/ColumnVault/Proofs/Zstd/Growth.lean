import ColumnVault.Proofs.Bytes.Slice
import ColumnVault.Proofs.Sequencing
import ColumnVault.Zstd.Frame

/-! Decoding a block only ever adds to the content so far. -/

namespace ColumnVault.Zstd

open Bytes

theorem size_copyWithin (out : ByteArray) (i n : Nat) : (copyWithin out i n).size = out.size + n := by
  induction n generalizing out i with
  | zero => rfl
  | succ n ih => rw [copyWithin, ih, ByteArray.size_push]; omega

theorem runSequences_grows (t : SequenceTables) (literals : ByteArray) (limit : Nat) :
    ∀ (n : Nat) (bits : BackBits) (ll of ml : Nat) (recent : Recent) (used : Nat) (out : ByteArray),
      Gives (runSequences t literals limit n bits ll of ml recent used out)
        fun r => out.size ≤ r.1.size
  | 0, bits, ll, of, ml, recent, used, out => by
    rw [runSequences]
    refine gives_ite (fun _ => gives_error _ _) fun _ => gives_ok ?_
    rw [ByteArray.size_append]
    omega
  | n + 1, bits, ll, of, ml, recent, used, out => by
    rw [runSequences]
    refine gives_bind fun ⟨offsetBits, bits⟩ _ => gives_bind fun ⟨more, bits⟩ _ => ?_
    refine gives_bind fun ⟨fewer, bits⟩ _ => ?_
    dsimp only
    rcases recent.resolve _ _ with ⟨distance, recent⟩
    dsimp only
    refine gives_ite (fun _ => gives_error _ _) fun _ => ?_
    -- the literals and the copy come behind the output, and the rest of the run behind them
    generalize hlit : (if _ = 0 then out else _) = withLiterals
    have hsize : out.size ≤ withLiterals.size := by
      rw [← hlit]
      split_ifs
      · exact Nat.le_refl _
      · rw [ByteArray.size_append]; omega
    generalize hcopy : copyWithin withLiterals _ _ = copied
    have hcopied : out.size ≤ copied.size := by
      rw [← hcopy, size_copyWithin]; omega
    have hrest : ∀ bits ll of ml recent used,
        Gives (runSequences t literals limit n bits ll of ml recent used copied)
          fun r => out.size ≤ r.1.size := fun _ _ _ _ _ _ a ha =>
      Nat.le_trans hcopied (runSequences_grows t literals limit n _ _ _ _ _ _ copied a ha)
    refine gives_ite (fun _ => hrest _ _ _ _ _ _) fun _ => ?_
    exact gives_bind fun _ _ => gives_bind fun _ _ => gives_bind fun _ _ => hrest _ _ _ _ _ _

theorem decodeBlock_grows (bytes : ByteArray) (start stop literalLimit limit : Nat) (memory : Memory)
    (out : ByteArray) : Gives (decodeBlock bytes start stop literalLimit limit memory out)
      fun r => out.size ≤ r.1.size := by
  rw [decodeBlock]
  refine gives_bind fun _ _ => gives_bind fun _ _ => gives_ite (fun _ => ?_) fun _ => ?_
  · refine gives_ite (fun _ => gives_error _ _) fun _ => gives_ok ?_
    rw [ByteArray.size_append]
    omega
  · refine gives_ite (fun _ => gives_error _ _) fun _ => gives_ite (fun _ => gives_error _ _) fun _ => ?_
    refine gives_bind fun _ _ => gives_bind fun _ _ => gives_bind fun _ _ => gives_bind fun _ _ => ?_
    refine gives_bind fun _ _ => gives_bind fun _ _ => gives_bind fun _ _ => ?_
    exact gives_bind fun _ hr => gives_ok (runSequences_grows _ _ _ _ _ _ _ _ _ _ _ _ hr)

theorem decodeBody_grows (bytes : ByteArray) (pos : Nat) (h : BlockHeader) (room : Room)
    (memory : Memory) (out : ByteArray) : Gives (decodeBody bytes pos h room memory out)
      fun r => out.size ≤ r.1.size := by
  rw [decodeBody]
  cases h.kind with
  | raw =>
    refine gives_ite (fun _ => gives_error _ _) fun _ => gives_ok ?_
    rw [ByteArray.size_append]
    omega
  | repeated =>
    refine gives_ite (fun _ => gives_error _ _) fun _ => gives_ok ?_
    rw [size_pushMany]
    omega
  | compressed => exact gives_ite (fun _ => gives_error _ _) fun _ => decodeBlock_grows _ _ _ _ _ _ _
  | reserved => exact gives_error _ _

end ColumnVault.Zstd
