import ElfAtlas.Proofs.Elf.Records

/-!
The record decoders add the distance of a field to the place of the record without a check. Here they are
run once more with a trace of these sums. A field starts where the one before it ends, so its place is
computed only behind bytes that have been read, and no such place is beyond a 64-bit word.
-/

namespace ElfAtlas

/-- A computation that can fail, with the sums of positions it forms until it ends. -/
structure Traced (α : Type) where
  sums : List Nat
  result : Except Fault α

namespace Traced

variable {α β : Type}

instance : Monad Traced where
  pure a := ⟨[], .ok a⟩
  bind t f :=
    match t.result with
    | .ok a => ⟨t.sums ++ (f a).sums, (f a).result⟩
    | .error fault => ⟨t.sums, .error fault⟩

instance : MonadLift (Except Fault) Traced where
  monadLift x := ⟨[], x⟩

def plus (a b : Nat) : Traced Nat := ⟨[a + b], .ok (a + b)⟩

@[simp] theorem result_pure (a : α) : (pure a : Traced α).result = pure a := rfl

@[simp] theorem result_lift (x : Except Fault α) : (liftM x : Traced α).result = x := rfl

@[simp] theorem result_plus (a b : Nat) : (plus a b).result = pure (a + b) := rfl

@[simp] theorem result_bind (t : Traced α) (f : α → Traced β) :
    (t >>= f).result = t.result >>= fun a => (f a).result := by
  obtain ⟨sums, result⟩ := t
  cases result <;> rfl

def Bounded (t : Traced α) : Prop := ∀ n ∈ t.sums, n < UInt64.size

theorem bounded_pure (a : α) : (pure a : Traced α).Bounded := fun _ h => by cases h

theorem bounded_lift (x : Except Fault α) : (liftM x : Traced α).Bounded := fun _ h => by cases h

theorem bounded_plus {a b : Nat} (h : a + b < UInt64.size) : (plus a b).Bounded := fun _ hn =>
  List.mem_singleton.1 hn ▸ h

theorem bounded_bind {t : Traced α} {f : α → Traced β} (ht : t.Bounded)
    (hf : ∀ a, t.result = .ok a → (f a).Bounded) : (t >>= f).Bounded := by
  obtain ⟨sums, result⟩ := t
  cases result with
  | error fault => exact ht
  | ok a =>
      intro n hn
      obtain hn | hn := List.mem_append.1 hn
      · exact ht n hn
      · exact hf a rfl n hn

section Fields

variable {r : Reader} {offset distance width : Nat} {next : α → Traced β}

/-- The first field stands where the record does, so no sum is formed for it. -/
theorem bounded_first {x : Except Fault α} (hread : r.ReadsRange offset width x x)
    (hnext : ∀ a, r.contains offset width = true → (next a).Bounded) : (liftM x >>= next).Bounded :=
  bounded_bind (bounded_lift x) fun a ha => hnext a (hread.contains_of_ok ha)

/-- A field behind bytes that lie in the image. They end at its place, which therefore is a word; once the
field is read, the bytes up to its end lie in the image. -/
theorem bounded_field {read : Nat → Except Fault α}
    (hread : r.ReadsRange (offset + distance) width (read (offset + distance)) (read (offset + distance)))
    (hbefore : r.contains offset distance = true)
    (hnext : ∀ a, r.contains offset (distance + width) = true → (next a).Bounded) :
    (plus offset distance >>= fun position => liftM (read position) >>= next).Bounded := by
  have hplace : offset + distance < UInt64.size := (Reader.contains_eq_true_iff.1 hbefore).2
  refine bounded_bind (bounded_plus hplace) fun position hposition => ?_
  obtain rfl : offset + distance = position := Except.ok.inj hposition
  refine bounded_bind (bounded_lift _) fun a ha => hnext a ?_
  have hfield := hread.contains_of_ok ha
  rwa [Reader.contains_eq_true_iff, ← Nat.add_assoc, ← Reader.contains_eq_true_iff]

end Fields

/-- The decoder `x` of a record of `size` bytes at `offset` has a result exactly for a record that lies in
the image, and else ends in a fault of its range. The trace `t` is one of this decoder, and its sums are
64-bit quantities. -/
structure Safe (t : Traced α) (x : Except Fault α) (r : Reader) (offset size : Nat) : Prop where
  result_eq : t.result = x
  exists_ok_iff : (∃ a, x = .ok a) ↔ r.contains offset size = true
  isRange_of_error : ∀ fault, x = .error fault → fault.IsRange
  bounded : t.Bounded

theorem safe_of_readsRange {t : Traced α} {x : Except Fault α} {r : Reader} {offset size : Nat}
    (hresult : t.result = x) (hread : r.ReadsRange offset size x x) (hbounded : t.Bounded) :
    t.Safe x r offset size where
  result_eq := hresult
  exists_ok_iff := hread.exists_ok_iff
  isRange_of_error _ := hread.isRange_of_error
  bounded := hbounded

end Traced

open Traced (plus)

variable (c : ElfClass) (withAddend : Bool) (r : Reader) (offset index : Nat)

namespace SectionRecord

def traced : Traced SectionRecord := decodeWith plus c r offset

theorem result_traced : (traced c r offset).result = decode c r offset := by
  cases c <;> simp [traced, decode, decodeWith]

theorem bounded_traced : (traced c r offset).Bounded := by
  have h := Reader.Continues.refl r
  cases c <;> simp only [traced, decodeWith]
  all_goals
    refine Traced.bounded_first (h.u32 offset) fun _ _ => ?_
    repeat refine Traced.bounded_field (by apply_rules [h.u32, h.u64]) ‹_› fun _ _ => ?_
    exact Traced.bounded_pure _

end SectionRecord

namespace Segment

def traced : Traced Segment := decodeWith plus c r offset index

theorem result_traced : (traced c r offset index).result = decode c r offset index := by
  cases c <;> simp [traced, decode, decodeWith]

theorem bounded_traced : (traced c r offset index).Bounded := by
  have h := Reader.Continues.refl r
  cases c <;> simp only [traced, decodeWith]
  all_goals
    refine Traced.bounded_first (h.u32 offset) fun _ _ => ?_
    repeat refine Traced.bounded_field (by apply_rules [h.u32, h.u64]) ‹_› fun _ _ => ?_
    exact Traced.bounded_pure _

end Segment

namespace SymbolRecord

def traced : Traced SymbolRecord := decodeWith plus c r offset

theorem result_traced : (traced c r offset).result = decode c r offset := by
  cases c <;> simp [traced, decode, decodeWith]

theorem bounded_traced : (traced c r offset).Bounded := by
  have h := Reader.Continues.refl r
  cases c <;> simp only [traced, decodeWith]
  all_goals
    refine Traced.bounded_first (h.u32 offset) fun _ _ => ?_
    repeat
      refine Traced.bounded_field (by apply_rules [h.u8, h.u16, h.u32, h.u64]) ‹_› fun _ _ => ?_
    exact Traced.bounded_pure _

end SymbolRecord

namespace RelocationRecord

def traced : Traced RelocationRecord := decodeWith plus c withAddend r offset

theorem result_traced : (traced c withAddend r offset).result = decode c withAddend r offset := by
  cases c <;> cases withAddend <;> simp [traced, decode, decodeWith]

theorem bounded_traced : (traced c withAddend r offset).Bounded := by
  have h := Reader.Continues.refl r
  cases c <;> simp only [traced, decodeWith]
  all_goals
    refine Traced.bounded_first (by apply_rules [h.u32, h.u64]) fun _ _ => ?_
    refine Traced.bounded_field (by apply_rules [h.u32, h.u64]) ‹_› fun _ _ => ?_
    split
    · refine Traced.bounded_field (by apply_rules [h.i32, h.i64]) ‹_› fun _ _ => ?_
      exact Traced.bounded_bind (Traced.bounded_pure _) fun _ _ => Traced.bounded_pure _
    · exact Traced.bounded_bind (Traced.bounded_pure _) fun _ _ => Traced.bounded_pure _

end RelocationRecord

/-- The decoders of section headers, program headers, symbols and relocations need no check of the place
they are given, be it beyond the image or at the end of the 64-bit range. -/
theorem recordDecoders_safe (r : Reader) (c : ElfClass) (offset : UInt64) (index : Nat)
    (withAddend : Bool) :
    (SectionRecord.traced c r offset.toNat).Safe (SectionRecord.decode c r offset.toNat) r offset.toNat
        c.sectionSize ∧
      (Segment.traced c r offset.toNat index).Safe (Segment.decode c r offset.toNat index) r
        offset.toNat c.segmentSize ∧
      (SymbolRecord.traced c r offset.toNat).Safe (SymbolRecord.decode c r offset.toNat) r offset.toNat
        c.symbolSize ∧
      (RelocationRecord.traced c withAddend r offset.toNat).Safe
        (RelocationRecord.decode c withAddend r offset.toNat) r offset.toNat
        (c.relocationSize withAddend) := by
  have h := Reader.Continues.refl r
  refine ⟨?sections, ?segments, ?symbols, ?relocations⟩
  case sections =>
    exact Traced.safe_of_readsRange (SectionRecord.result_traced c r _) (h.sectionRecord c _)
      (SectionRecord.bounded_traced c r _)
  case segments =>
    exact Traced.safe_of_readsRange (Segment.result_traced c r _ index) (h.segment c _ index)
      (Segment.bounded_traced c r _ index)
  case symbols =>
    exact Traced.safe_of_readsRange (SymbolRecord.result_traced c r _) (h.symbolRecord c _)
      (SymbolRecord.bounded_traced c r _)
  case relocations =>
    exact Traced.safe_of_readsRange (RelocationRecord.result_traced c withAddend r _)
      (h.relocationRecord c withAddend _) (RelocationRecord.bounded_traced c withAddend r _)

-- A record at the last position of the 64-bit range, and one that the end of the image cuts in its addend.
example : (SectionRecord.traced .elf64 ⟨#[], .little⟩ (UInt64.size - 1)).sums = [] := by decide

example :
    (RelocationRecord.traced .elf32 true ⟨Array.replicate 9 0, .little⟩ 0).sums = [4, 8] := by
  decide

end ElfAtlas
