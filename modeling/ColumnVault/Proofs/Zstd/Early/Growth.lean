import ColumnVault.Proofs.Sequencing
import ColumnVault.Zstd.Early.Frame

/-! Decoding a block of an early format moves on in the buffer and leaves every cell behind it
filled. -/

namespace ColumnVault.Zstd.Early

open Bytes

namespace Buffer

/-- The cells of the present run are there. -/
def Filled (b : Buffer) : Prop :=
  b.pos ≤ b.cells.size

/-- The buffer after some content was put in, which is a filled one. -/
structure GrowsTo (b b' : Buffer) : Prop where
  pos_le : b.pos ≤ b'.pos
  filled : b'.Filled

theorem GrowsTo.refl {b : Buffer} (h : b.Filled) : b.GrowsTo b :=
  ⟨Nat.le_refl _, h⟩

theorem GrowsTo.trans {b b' b'' : Buffer} (h : b.GrowsTo b') (h' : b'.GrowsTo b'') : b.GrowsTo b'' :=
  ⟨Nat.le_trans h.pos_le h'.pos_le, h'.filled⟩

theorem size_set {cells : ByteArray} {i : Nat} (h : i < cells.size) (x : UInt8) :
    (cells.set i x h).size = cells.size := by
  rw [← ByteArray.size_data, ByteArray.data_set, Array.size_set, ByteArray.size_data]

theorem lt_size_store {cells : ByteArray} {i : Nat} (h : i ≤ cells.size) (x : UInt8) :
    i < (store cells i x).size := by
  rw [store]
  split_ifs with hi
  · rwa [size_set]
  · rw [ByteArray.size_push]; omega

theorem le_size_copyFrom (source : ByteArray) (n i : Nat) {cells : ByteArray} {at_ : Nat}
    (h : at_ ≤ cells.size) : at_ + n ≤ (copyFrom source n i cells at_).size := by
  induction n generalizing i cells at_ with
  | zero => exact h
  | succ n ih =>
    have hstore : at_ + 1 ≤ (store cells at_ (byteAt source i)).size := lt_size_store h _
    have := ih (i + 1) hstore
    rw [copyFrom]
    omega

theorem le_size_copyForward (n i : Nat) {cells : ByteArray} {at_ : Nat} (h : at_ ≤ cells.size) :
    at_ + n ≤ (copyForward n i cells at_).size := by
  induction n generalizing i cells at_ with
  | zero => exact h
  | succ n ih =>
    have hstore : at_ + 1 ≤ (store cells at_ (byteAt cells i)).size := lt_size_store h _
    have := ih (i + 1) hstore
    rw [copyForward]
    omega

theorem le_pieces (n : Nat) : n ≤ pieces n := by
  rw [pieces]
  omega

/-- Copying in pieces reaches the end of the copy. -/
theorem le_piecesEnd (capacity minMatch at_ n : Nat) : at_ + n ≤ piecesEnd capacity minMatch at_ n := by
  have := le_pieces (n - 8)
  simp only [piecesEnd]
  split_ifs <;> omega

theorem le_size_copyRun (capacity minMatch i n : Nat) {cells : ByteArray} {at_ : Nat}
    (h : at_ ≤ cells.size) : at_ + n ≤ (copyRun cells capacity minMatch i at_ n).size := by
  have := le_size_copyForward (piecesEnd capacity minMatch at_ n - at_) i h
  have := le_piecesEnd capacity minMatch at_ n
  rw [copyRun]
  omega

theorem le_size_copyAcross (b : Buffer) (minMatch back length : Nat) {at_ : Nat}
    (h : at_ ≤ b.cells.size) : at_ + length ≤ (b.copyAcross minMatch back at_ length).size := by
  simp only [copyAcross]
  split_ifs with hback hnear
  · exact le_size_copyFrom _ _ _ h
  · have hfirst := le_size_copyFrom (b.cells.extract (b.previous - back) b.previous) back 0 h
    have := le_size_copyForward (length - back) 0 hfirst
    omega
  · have hfirst := le_size_copyFrom (b.cells.extract (b.previous - back) b.previous) back 0 h
    have := le_size_copyRun b.capacity minMatch 0 (length - back) hfirst
    omega

theorem append_grows {b : Buffer} (h : b.Filled) (source : ByteArray) (i n : Nat) :
    Gives (b.append source i n) b.GrowsTo := by
  rw [append]
  refine gives_ite (fun _ => gives_error _ _) fun _ => gives_ok ⟨?_, ?_⟩
  · exact Nat.le_add_right _ _
  · exact le_size_copyFrom _ _ _ h

theorem apply_grows {b : Buffer} (h : b.Filled) (minMatch : Nat) (l : Literals) (used : Nat)
    (s : Sequence) : Gives (b.apply minMatch l used s) b.GrowsTo := by
  have hlit : b.pos + s.literals ≤
      (copyFrom l.source (pieces s.literals) (l.start + used) b.cells b.pos).size := by
    have := le_size_copyFrom l.source (pieces s.literals) (l.start + used) h
    have := le_pieces s.literals
    omega
  simp only [Buffer.apply]
  refine gives_ite (fun _ => gives_error _ _) fun _ => gives_ok ⟨?_, ?_⟩
  · show b.pos ≤ b.pos + s.literals + s.length
    omega
  · show b.pos + s.literals + s.length ≤ ByteArray.size (if _ then _ else _)
    split_ifs
    · exact le_size_copyRun _ _ _ _ hlit
    · exact le_size_copyAcross _ _ _ _ hlit

theorem appendRest_grows {b : Buffer} (h : b.Filled) (l : Literals) (used : Nat) :
    Gives (b.appendRest l used) b.GrowsTo :=
  append_grows h _ _ _

theorem turnOver_filled {b : Buffer} (h : b.Filled) (room : Nat) : (b.turnOver room).Filled := by
  rw [turnOver]
  split_ifs
  · exact Nat.zero_le _
  · exact h

end Buffer

theorem SideDecoder.run_grows (f : Format) (t : SequenceTables) (bytes : ByteArray) (l : Literals) :
    ∀ (n : Nat) (d : SideDecoder) (used : Nat) {b : Buffer}, b.Filled →
      Gives (SideDecoder.run f t bytes l n d used b) fun r => b.GrowsTo r.2.2
  | 0, d, used, b, h => gives_ok (.refl h)
  | n + 1, d, used, b, h => by
    rw [SideDecoder.run]
    refine gives_ite (fun _ => gives_error _ _) fun _ => ?_
    refine gives_bind fun b' hb => ?_
    have hgrow := Buffer.apply_grows h _ _ _ _ b' hb
    intro r hr
    exact hgrow.trans (SideDecoder.run_grows f t bytes l n _ _ hgrow.filled r hr)

theorem Decoder.run_grows (f : Format) (t : SequenceTables) (bytes : ByteArray) (l : Literals) :
    ∀ (n : Nat) (d : Decoder) (used : Nat) {b : Buffer}, b.Filled →
      Gives (Decoder.run f t bytes l n d used b) fun r => b.GrowsTo r.2.2
  | 0, d, used, b, h => gives_ok (.refl h)
  | n + 1, d, used, b, h => by
    rw [Decoder.run]
    refine gives_ite (fun _ => gives_error _ _) fun _ => ?_
    refine gives_bind fun b' hb => ?_
    have hgrow := Buffer.apply_grows h _ _ _ _ b' hb
    intro r hr
    exact hgrow.trans (Decoder.run_grows f t bytes l n _ _ hgrow.filled r hr)

theorem runSideSequences_grows (f : Format) (bytes : ByteArray) (start stop : Nat) (l : Literals)
    {b : Buffer} (h : b.Filled) : Gives (runSideSequences f bytes start stop l b) b.GrowsTo := by
  rw [runSideSequences]
  refine gives_bind fun ⟨count, next⟩ _ => ?_
  refine gives_ite (fun _ => Buffer.appendRest_grows h _ _) fun _ => ?_
  refine gives_ite (fun _ => gives_error _ _) fun _ => ?_
  dsimp only
  refine gives_ite (fun _ => gives_error _ _) fun _ => ?_
  refine gives_bind fun _ _ => gives_bind fun _ _ => gives_bind fun _ _ => ?_
  refine gives_ite (fun _ => Buffer.appendRest_grows h _ _) fun _ => ?_
  refine gives_bind fun bits _ => gives_bind fun ⟨d, used, b'⟩ hrun => ?_
  have hgrow := SideDecoder.run_grows _ _ _ _ _ _ _ h _ hrun
  refine gives_ite (fun _ => gives_error _ _) fun _ => ?_
  exact fun r hr => hgrow.trans (Buffer.appendRest_grows hgrow.filled _ _ r hr)

theorem runSequences_grows (f : Format) (bytes : ByteArray) (start stop : Nat) (memory : Memory)
    (l : Literals) {b : Buffer} (h : b.Filled) :
    Gives (runSequences f bytes start stop memory l b) fun r => b.GrowsTo r.1 := by
  rw [runSequences]
  refine gives_bind fun ⟨count, next⟩ _ => ?_
  refine gives_ite (fun _ => gives_bind fun r hr =>
    gives_ok (Buffer.appendRest_grows h _ _ r hr)) fun _ => ?_
  refine gives_ite (fun _ => gives_error _ _) fun _ => ?_
  refine gives_bind fun _ _ => gives_bind fun _ _ => gives_bind fun _ _ => ?_
  refine gives_ite (fun _ => gives_bind fun r hr =>
    gives_ok (Buffer.appendRest_grows h _ _ r hr)) fun _ => ?_
  refine gives_bind fun bits _ => gives_bind fun ⟨recent, used, b'⟩ hrun => ?_
  have hgrow := Decoder.run_grows _ _ _ _ _ _ _ h _ hrun
  exact gives_bind fun r hr => gives_ok (hgrow.trans (Buffer.appendRest_grows hgrow.filled _ _ r hr))

theorem decodeBlock_grows (f : Format) (bytes : ByteArray) (start stop : Nat) (memory : Memory)
    {b : Buffer} (h : b.Filled) :
    Gives (decodeBlock f bytes start stop memory b) fun r => b.GrowsTo r.1 := by
  rw [decodeBlock]
  refine gives_ite (fun _ => gives_error _ _) fun _ => gives_bind fun ⟨literals, code, next⟩ _ => ?_
  refine gives_ite (fun _ => gives_bind fun r hr => ?_) fun _ => runSequences_grows _ _ _ _ _ _ h
  exact gives_ok (runSideSequences_grows _ _ _ _ _ h r hr)

theorem decodeBody_grows (f : Format) (bytes : ByteArray) (pos : Nat) (header : BlockHeader)
    (memory : Memory) {b : Buffer} (h : b.Filled) :
    Gives (decodeBody f bytes pos header memory b) fun r => b.GrowsTo r.1 := by
  rw [decodeBody]
  cases header.kind with
  | raw => exact gives_bind fun r hr => gives_ok (Buffer.append_grows h _ _ _ r hr)
  | repeated => exact gives_error _ _
  | compressed => exact decodeBlock_grows _ _ _ _ _ h
  | last => exact gives_ok (.refl h)

end ColumnVault.Zstd.Early
