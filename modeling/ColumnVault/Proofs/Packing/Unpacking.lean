import ColumnVault.Proofs.Packing.RoundTrip
import ColumnVault.Proofs.Zstd.Chunks

/-! Unpacking in chunks. With any decoder that reads frames turn by turn, what comes of unpacking is told by
the packed bytes and the limit alone: the content if they are one whole frame and the limit suffices, and a
failure otherwise. -/

namespace ColumnVault

namespace Zstd

/-- A frame that is skipped has no content. -/
theorem isFrame_of_skippable {bytes content : ByteArray} {size : Nat}
    (h : readStart bytes = .ok (.skippable size)) :
    IsFrame bytes content ↔ content = ByteArray.empty ∧ bytes.size = 8 + size := by
  have hread (limit : Nat) : readFrame limit bytes =
      if bytes.size < 8 + size then .error .truncated else .ok (ByteArray.empty, 8 + size) := by
    rw [readFrame, h]
    rfl
  rw [isFrame_iff_begins]
  constructor
  · rintro ⟨limit, hlimit⟩
    rw [hread] at hlimit
    split_ifs at hlimit
    obtain ⟨rfl, hsize⟩ := Prod.mk.inj (Except.ok.inj hlimit)
    exact ⟨rfl, hsize.symm⟩
  · rintro ⟨rfl, hsize⟩
    refine ⟨0, ?_⟩
    rw [hread, hsize, if_neg (Nat.lt_irrefl _)]

end Zstd

namespace Packing

open Zstd (Decoder IsFrame Plan Reading)

variable {σ : Type} {d : Decoder σ} {packed content : ByteArray} {limit : Nat}

/-- Unpacks a frame under a limit with a decoder that was left in some state. -/
def unpackWith (d : Decoder σ) (s : σ) (limit : Nat) (packed : ByteArray) : Except Error ByteArray :=
  (d.decode s limit packed).mapError fun text => .decompressionFailed (.other text)

theorem unpackWith_eq_ok_iff (h : d.Streams packed) (s : σ) :
    unpackWith d s limit packed = .ok content ↔ IsFrame packed content ∧ content.size ≤ limit := by
  rw [← h.decode_eq_ok_iff s, unpackWith]
  cases d.decode s limit packed with
  | ok out => exact ⟨fun hok => by cases hok; rfl, fun hok => by cases hok; rfl⟩
  | error text => exact ⟨nofun, nofun⟩

/-- Unpacking comes to a content or to one kind of failure. -/
theorem unpackWith_cases (d : Decoder σ) (s : σ) (limit : Nat) (packed : ByteArray) :
    (∃ content, unpackWith d s limit packed = .ok content) ∨
      ∃ text, unpackWith d s limit packed = .error (.decompressionFailed (.other text)) := by
  rw [unpackWith]
  cases d.decode s limit packed with
  | ok out => exact .inl ⟨out, rfl⟩
  | error text => exact .inr ⟨text, rfl⟩

/-- Unpacking with a decoder that reads frames turn by turn, in whatever chunks. The loop ends after as many
turns as there are bytes to be read and written, and one, and never keeps more than the limit. It comes to
the content if the bytes are one whole frame, with nothing behind it, and the content is within the limit,
and to a failure otherwise; a frame that is skipped has no content. So it does not matter in which chunks
the decoder writes, nor in which state it was left, and under its own limit `unpack` gives the same. -/
theorem unpack_in_chunks (d : Decoder σ) (packed : ByteArray) (h : d.Streams packed) (s : σ)
    (limit : Nat) :
    (∃ s', d.reset s = .ok s' ∧
      d.turns limit (packed.size + limit + 1) (.start s' packed) = .inr (d.decode s limit packed) ∧
      ∀ n r, d.turns limit n (.start s' packed) = .inl r → r.out.size ≤ limit) ∧
    (∀ content, unpackWith d s limit packed = .ok content ↔
      IsFrame packed content ∧ content.size ≤ limit) ∧
    ((∀ content, IsFrame packed content → limit < content.size) →
      ∃ text, unpackWith d s limit packed = .error (.decompressionFailed (.other text))) ∧
    (∀ size content, Zstd.readStart packed = .ok (.skippable size) →
      (IsFrame packed content ↔ content = ByteArray.empty ∧ packed.size = 8 + size)) ∧
    (∀ (τ : Type) (d' : Decoder τ) (s' : τ), d'.Streams packed → ∀ content,
      unpackWith d' s' limit packed = .ok content ↔ unpackWith d s limit packed = .ok content) ∧
    (∀ content, unpackWith d s maxContent packed = .ok content ↔ unpack .zstd packed = .ok content) ∧
    ∀ content, unpack .zstd packed = .ok content ↔
      IsFrame packed content ∧ content.size ≤ 64 * 1024 * 1024 := by
  obtain ⟨s', hreset⟩ := h.resets s
  have hloop : d.decode s limit packed = d.loop limit (.start s' packed) := by
    rw [Decoder.decode, hreset]
  have hleft : (Reading.start s' packed).left limit < packed.size + limit + 1 :=
    Nat.lt_succ_of_le (Nat.le_refl _)
  refine ⟨⟨s', hreset, ?_, fun n r => Decoder.size_out_le_of_turns (Nat.zero_le _)⟩,
    fun content => unpackWith_eq_ok_iff h s, fun hnone => ?_,
    fun size content => Zstd.isFrame_of_skippable, fun τ d' s' h' content => ?_, fun content => ?_,
    fun content => unpack_zstd_eq_ok_iff⟩
  · rw [hloop, Decoder.turns_eq_loop hleft]
  · refine (unpackWith_cases d s limit packed).resolve_left ?_
    rintro ⟨content, hok⟩
    obtain ⟨hframe, hle⟩ := (unpackWith_eq_ok_iff h s).1 hok
    exact Nat.not_lt.2 hle (hnone content hframe)
  · rw [unpackWith_eq_ok_iff h', unpackWith_eq_ok_iff h]
  · rw [unpackWith_eq_ok_iff h, unpack_zstd_eq_ok_iff]

/-- The plan for bytes whose content is within the limit for unpacking. -/
def planWithin (bytes : ByteArray) : Plan bytes :=
  match Zstd.readFrame maxContent bytes with
  | .ok (content, next) =>
    if h : next ≤ bytes.size then ⟨content, .whole next h⟩ else ⟨content, .cut⟩
  | .error (.codec fault) => ⟨ByteArray.empty, .fault fault⟩
  | .error _ => ⟨ByteArray.empty, .cut⟩

/-- A frame with three bytes as they are. -/
def threeBytes : ByteArray :=
  ⟨#[0x28, 0xb5, 0x2f, 0xfd, 0x20, 3, 0x19, 0, 0, 0x61, 0x62, 0x63]⟩

/-- The frame is unpacked under a limit of three bytes and not under one of two, by a decoder that was left
with seven bytes written. -/
theorem unpack_in_chunks_three_bytes :
    (Decoder.ofPlan planWithin).Streams threeBytes ∧
      unpackWith (Decoder.ofPlan planWithin) 7 3 threeBytes = .ok "abc".toUTF8 ∧
      ∃ text, unpackWith (Decoder.ofPlan planWithin) 7 2 threeBytes =
        .error (.decompressionFailed (.other text)) := by
  have hread : Zstd.readFrame maxContent threeBytes = .ok ("abc".toUTF8, 12) := by decide +kernel
  have hplan : planWithin threeBytes = ⟨"abc".toUTF8, .whole 12 (by decide)⟩ := by
    rw [planWithin, hread]
    rfl
  have htells : (planWithin threeBytes).Tells := by
    rw [hplan]
    exact Plan.tells_of_begins ⟨maxContent, hread⟩ rfl
  have hstreams := Zstd.streams_ofPlan htells
  have hframe : IsFrame threeBytes "abc".toUTF8 := Zstd.isFrame_iff_begins.2 ⟨maxContent, hread⟩
  obtain ⟨-, hexact, -⟩ := unpack_in_chunks (Decoder.ofPlan planWithin) threeBytes hstreams 7 3
  obtain ⟨-, -, hfails, -⟩ := unpack_in_chunks (Decoder.ofPlan planWithin) threeBytes hstreams 7 2
  refine ⟨hstreams, (hexact _).2 ⟨hframe, Nat.le_refl 3⟩, hfails fun content hcontent => ?_⟩
  obtain ⟨rfl, -⟩ := (Zstd.isFrame_iff_begins.1 hframe).unique (Zstd.isFrame_iff_begins.1 hcontent)
  exact Nat.lt_succ_self 2

end Packing

end ColumnVault
