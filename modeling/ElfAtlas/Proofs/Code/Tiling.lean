import ElfAtlas.Proofs.Code.PlainDecoders

/-!
A stream tiles its range, whatever its decoder does. The decoder is any function of a state of its own,
so the items are followed one by one, together with what the decoder has been asked before each of them.
Main statement: `Stream.drain_ofRange_tiles`.
-/

namespace ElfAtlas

open Instruction

variable {σ δ : Type} {e : Engine σ δ} {arch : Architecture}

namespace Engine

def questions (base : UInt64) (code : List UInt8) (is : List Instruction) (k : Nat) :
    List (List UInt8 × UInt64) :=
  (List.range k).map fun j =>
    (code.drop (totalLength (is.take j)), base + UInt64.ofNat (totalLength (is.take j)))

theorem questions_succ (base : UInt64) (code : List UInt8) (i : Instruction)
    (is : List Instruction) (k : Nat) :
    questions base code (i :: is) (k + 1) =
      (code, base) :: questions (base + UInt64.ofNat i.length) (code.drop i.length) is k := by
  rw [questions, List.range_succ_eq_map, List.map_cons, List.map_map, questions]
  refine List.cons_eq_cons.2 ⟨?_, List.map_congr_left fun j _ => ?_⟩
  · simp [totalLength]
  · simp only [Function.comp_apply, List.take_succ_cons, totalLength_cons, List.drop_drop,
      UInt64.ofNat_add, UInt64.add_assoc]

/-- Whatever the decoder is asked first, an instruction that fits into the code bears the address the
decoder was asked at, and its bytes are those at the front of the code. -/
def Copies (e : Engine σ δ) (d : δ) : Prop :=
  ∀ questions code address i, (e.decode (e.asked d questions) code address).1 = some i →
    i.length ≤ code.length → i.address = address ∧ i.bytes = code.take i.length

theorem Copies.next {d : δ} (h : e.Copies d) (code : List UInt8) (address : UInt64) :
    e.Copies (e.decode d code address).2 :=
  fun questions => h ((code, address) :: questions)

theorem Copies.asked {d : δ} (h : e.Copies d) (questions : List (List UInt8 × UInt64)) :
    e.Copies (e.asked d questions) := by
  intro later code address i hi
  rw [Engine.asked, Engine.asked, ← List.foldl_append] at hi
  exact h (questions ++ later) code address i hi

/-- What the decoder answers where item `k` lies, asked about the items before it and about no others. -/
def answerAt (e : Engine σ δ) (d : δ) (base : UInt64) (code : List UInt8) (is : List Instruction)
    (k : Nat) : Option Instruction :=
  (e.decode (e.asked d (questions base code is k)) (code.drop (totalLength (is.take k)))
    (base + UInt64.ofNat (totalLength (is.take k)))).1

end Engine

namespace Stream

theorem decoder_item (e : Engine σ δ) (arch : Architecture) (d : δ) (rest : List UInt8)
    (address : UInt64) : (item e arch d rest address).2 = (e.decode d rest address).2 := by
  unfold item
  split <;> simp_all

/-- An item is what the decoder answers, if that takes some of the bytes and no others; else it stands
for bytes that could not be decoded. -/
theorem item_cases (e : Engine σ δ) (arch : Architecture) (d : δ) (rest : List UInt8)
    (address : UInt64) :
    ((e.decode d rest address).1 = some (item e arch d rest address).1 ∧
      0 < (item e arch d rest address).1.length ∧
      (item e arch d rest address).1.length ≤ rest.length) ∨
    ((∀ i, (e.decode d rest address).1 = some i → i.length = 0 ∨ rest.length < i.length) ∧
      (item e arch d rest address).1 = .bad address (rest.take arch.minLength)) := by
  rcases hr : e.decode d rest address with ⟨answer, d'⟩
  cases answer with
  | none => exact .inr ⟨by simp, by rw [item, hr]⟩
  | some i =>
      by_cases hi : acceptable rest i = true
      · have hitem : (item e arch d rest address).1 = i := by rw [item, hr]; exact if_pos hi
        rw [hitem]
        exact .inl ⟨rfl, PureDecoder.acceptable_iff.1 hi⟩
      · have hitem : (item e arch d rest address).1 = .bad address (rest.take arch.minLength) := by
          rw [item, hr]; exact if_neg hi
        refine .inr ⟨fun j hj => ?_, hitem⟩
        rw [PureDecoder.acceptable_iff] at hi
        cases hj
        omega

/-- The row of items of `rest`: each item is the one at the front of what the items before it leave,
from the decoder as they leave it. -/
inductive Items (e : Engine σ δ) (arch : Architecture) :
    δ → UInt64 → List UInt8 → List Instruction → Prop
  | done (d : δ) (address : UInt64) : Items e arch d address [] []
  | step {d : δ} {address : UInt64} {rest : List UInt8} {i : Instruction} {d' : δ}
      {is : List Instruction} (hrest : rest ≠ []) (hitem : item e arch d rest address = (i, d'))
      (hmore : Items e arch d' (address + UInt64.ofNat i.length) (rest.drop i.length) is) :
      Items e arch d address rest (i :: is)

/-- A stream with an open decoder yields the row of items of what is left, and is then at its end. -/
theorem items_drain {s : Stream δ} {d : δ} (hd : s.decoder = some d) (shared : σ) :
    Items e s.arch d s.address s.rest (drain e s shared).1 ∧ (drain e s shared).2.1.rest = [] := by
  induction hn : s.rest.length using Nat.strongRecOn generalizing s d with
  | ind n ih =>
      by_cases hrest : s.rest = []
      · rw [drain_of_none (next_of_rest_eq_nil hrest shared), hrest]
        exact ⟨.done d s.address, rfl⟩
      · have hlen := length_item e s.arch d s.rest s.address hrest
        rw [drain_of_some (next_of_decoder hd hrest shared)]
        rcases hitem : item e s.arch d s.rest s.address with ⟨i, d'⟩
        rw [hitem] at hlen
        simp only at hlen
        obtain ⟨hmore, hend⟩ := ih _ (by
          rw [rest_advance, List.length_drop]
          omega) (decoder_advance s i.length d') rfl
        rw [arch_advance, address_advance, rest_advance] at hmore
        exact ⟨.step hrest hitem hmore, hend⟩

theorem Items.totalLength_eq {d : δ} {address : UInt64} {rest : List UInt8} {is : List Instruction}
    (h : Items e arch d address rest is) : totalLength is = rest.length := by
  induction h with
  | done d address => rfl
  | @step d address rest i d' is hrest hitem hmore ih =>
      have hlen := length_item e arch d rest address hrest
      rw [hitem] at hlen
      simp only at hlen
      rw [totalLength_cons, ih, List.length_drop]
      omega

/-- Item `k` lies behind the items before it, and the decoder has been asked about just these. -/
theorem Items.getElem? {d : δ} {address : UInt64} {rest : List UInt8} {is : List Instruction}
    (h : Items e arch d address rest is) {k : Nat} {i : Instruction} (hi : is[k]? = some i) :
    rest.drop (totalLength (is.take k)) ≠ [] ∧
      i = (item e arch (e.asked d (Engine.questions address rest is k))
        (rest.drop (totalLength (is.take k)))
        (address + UInt64.ofNat (totalLength (is.take k)))).1 := by
  induction h generalizing k with
  | done d address => simp at hi
  | @step d address rest j d' is hrest hitem hmore ih =>
      cases k with
      | zero =>
          rw [List.getElem?_cons_zero, Option.some.injEq] at hi
          refine ⟨hrest, ?_⟩
          simp [Engine.asked, Engine.questions, totalLength, hitem, hi]
      | succ k =>
          rw [List.getElem?_cons_succ] at hi
          have hd' : d' = (e.decode d rest address).2 := by
            rw [← decoder_item e arch, hitem]
          rw [Engine.questions_succ, List.take_succ_cons, totalLength_cons, ← List.drop_drop,
            UInt64.ofNat_add, ← UInt64.add_assoc]
          obtain ⟨hne, heq⟩ := ih hi
          rw [hd'] at heq
          exact ⟨hne, heq⟩

/-- From a decoder that copies, every item bears its address and holds the bytes that it takes. -/
theorem item_of_copies {d : δ} (h : e.Copies d) (arch : Architecture) (rest : List UInt8)
    (address : UInt64) :
    (item e arch d rest address).1.address = address ∧
      (item e arch d rest address).1.bytes =
        rest.take (item e arch d rest address).1.length := by
  obtain ⟨hanswer, -, hle⟩ | ⟨-, hbad⟩ := item_cases e arch d rest address
  · exact h [] rest address _ hanswer hle
  · rw [hbad]
    refine ⟨rfl, ?_⟩
    rw [PureDecoder.length_bad, List.length_take, Instruction.bad, ← List.take_eq_take_min]

theorem Items.bytes_eq {d : δ} {address : UInt64} {rest : List UInt8} {is : List Instruction}
    (h : Items e arch d address rest is) (hd : e.Copies d) : is.flatMap (·.bytes) = rest := by
  induction h with
  | done d address => rfl
  | @step d address rest i d' is hrest hitem hmore ih =>
      have hnext : e.Copies d' := by
        have hd' := decoder_item e arch d rest address
        rw [hitem] at hd'
        rw [show d' = _ from hd']
        exact hd.next rest address
      have hbytes := (item_of_copies hd arch rest address).2
      rw [hitem] at hbytes
      rw [List.flatMap_cons, ih hnext, show i.bytes = _ from hbytes]
      exact List.take_append_drop i.length rest

structure Tiles (e : Engine σ δ) (arch : Architecture) (d : δ) (base : UInt64) (code : List UInt8)
    (is : List Instruction) : Prop where
  /-- There are no more items than bytes. -/
  count : is.length ≤ code.length
  /-- The items take all the bytes. -/
  total : totalLength is = code.length
  /-- Each item takes some of the bytes that the items before it leave, and no others. -/
  length : ∀ k i, is[k]? = some i →
    0 < i.length ∧ i.length ≤ code.length - totalLength (is.take k)
  /-- Each item is the decoder's answer, or the answer takes no bytes or too many and the item stands
  for the bytes there, as many as are passed over and are left. -/
  answer : ∀ k i, is[k]? = some i → e.answerAt d base code is k = some i ∨
    ((∀ j, e.answerAt d base code is k = some j →
        j.length = 0 ∨ code.length - totalLength (is.take k) < j.length) ∧
      i = .bad (base + UInt64.ofNat (totalLength (is.take k)))
        ((code.drop (totalLength (is.take k))).take arch.minLength) ∧
      i.length = min arch.minLength (code.length - totalLength (is.take k)))
  /-- From a decoder that copies, the items hold the bytes of the code. -/
  bytes : e.Copies d → is.flatMap (·.bytes) = code
  /-- From a decoder that copies, each item bears the address behind the items before it. -/
  address : e.Copies d → ∀ k i, is[k]? = some i →
    i.address = base + UInt64.ofNat (totalLength (is.take k))

theorem length_le_totalLength {is : List Instruction} (h : ∀ i ∈ is, 0 < i.length) :
    is.length ≤ totalLength is := by
  induction is with
  | nil => exact Nat.le_refl 0
  | cons i is ih =>
      obtain ⟨hi, his⟩ := List.forall_mem_cons.1 h
      have := ih his
      rw [List.length_cons, totalLength_cons]
      omega

theorem Items.tiles {d : δ} {base : UInt64} {code : List UInt8} {is : List Instruction}
    (h : Items e arch d base code is) : Tiles e arch d base code is := by
  have hlength (k : Nat) (i : Instruction) (hi : is[k]? = some i) :
      0 < i.length ∧ i.length ≤ code.length - totalLength (is.take k) := by
    obtain ⟨hne, heq⟩ := h.getElem? hi
    have hlen := length_item e arch (e.asked d (Engine.questions base code is k)) _
      (base + UInt64.ofNat (totalLength (is.take k))) hne
    rwa [← heq, List.length_drop] at hlen
  refine ⟨?_, h.totalLength_eq, hlength, fun k i hi => ?_, h.bytes_eq, fun hd k i hi => ?_⟩
  · rw [← h.totalLength_eq]
    refine length_le_totalLength fun i hi => ?_
    obtain ⟨k, hk⟩ := List.getElem?_of_mem hi
    exact (hlength k i hk).1
  · obtain ⟨-, heq⟩ := h.getElem? hi
    obtain ⟨hanswer, -, -⟩ | ⟨hnone, hbad⟩ := item_cases e arch
      (e.asked d (Engine.questions base code is k)) (code.drop (totalLength (is.take k)))
      (base + UInt64.ofNat (totalLength (is.take k)))
    · rw [← heq] at hanswer
      exact .inl hanswer
    · rw [← heq] at hbad
      rw [List.length_drop] at hnone
      refine .inr ⟨hnone, hbad, ?_⟩
      rw [hbad, PureDecoder.length_bad, List.length_take, List.length_drop]
  · obtain ⟨-, heq⟩ := h.getElem? hi
    rw [heq]
    exact (item_of_copies (hd.asked _) arch _ _).1

/-- A stream over a range of an image starts at the first byte of the range, with an open decoder. -/
theorem exists_ofRange {order : ByteOrder} (base : UInt64) {image : Array UInt8}
    {first stop : Nat} {shared shared' : σ} {d : δ} (hrange : first ≤ stop)
    (himage : stop ≤ image.size) (hopen : e.start arch order shared = (.ok d, shared')) :
    ∃ s, ofRange e arch order base image first stop shared = (.ok s, shared') ∧
      s.arch = arch ∧ s.order = order ∧ s.base = base ∧
      s.code = (image.extract first stop).toList ∧ s.pos = 0 ∧ s.decoder = some d := by
  refine ⟨{ (ofCode arch order base (image.extract first stop).toList : Stream δ) with
    decoder := some d }, ?_, rfl, rfl, rfl, rfl, rfl, rfl⟩
  rw [ofRange, if_neg (by omega), start, hopen]

/-- Drained, a stream over a range tiles the range and has nothing left. -/
theorem tiles_ofRange {order : ByteOrder} (base : UInt64) {image : Array UInt8}
    {first stop : Nat} {shared shared' : σ} {d : δ} (hrange : first ≤ stop)
    (himage : stop ≤ image.size) (hopen : e.start arch order shared = (.ok d, shared')) :
    ∃ s, ofRange e arch order base image first stop shared = (.ok s, shared') ∧
      Tiles e arch d base (image.extract first stop).toList (drain e s shared').1 ∧
      (drain e s shared').2.1.rest = [] := by
  obtain ⟨s, hs, harch, -, hbase, hcode, hpos, hd⟩ := exists_ofRange base hrange himage hopen
  obtain ⟨hitems, hend⟩ := items_drain (e := e) hd shared'
  have hrest : s.rest = (image.extract first stop).toList := by
    rw [s.rest_eq, hpos, hcode, List.drop_zero]
  have haddress : s.address = base := by
    rw [address, hbase, hpos]
    exact UInt64.add_zero base
  rw [harch, haddress, hrest] at hitems
  exact ⟨s, hs, hitems.tiles, hend⟩

/-- A stream over a range of an image, from an engine that opens a decoder, ends after its items have
tiled the range, whatever the decoder answers. -/
theorem drain_ofRange_tiles {order : ByteOrder} (base : UInt64) {image : Array UInt8}
    {first stop : Nat} {shared shared' : σ} {d : δ} (hrange : first ≤ stop)
    (himage : stop ≤ image.size) (hopen : e.start arch order shared = (.ok d, shared')) :
    ∃ s, ofRange e arch order base image first stop shared = (.ok s, shared') ∧
      (image.extract first stop).toList.length = stop - first ∧
      Tiles e arch d base (image.extract first stop).toList (drain e s shared').1 ∧
      ∀ shared'', (next e (drain e s shared').2.1 shared'').1 = none := by
  obtain ⟨s, hs, htiles, hend⟩ := tiles_ofRange base hrange himage hopen
  refine ⟨s, hs, ?_, htiles, fun shared'' => ?_⟩
  · rw [Array.length_toList, Array.size_extract, Nat.min_eq_left himage]
  · rw [next_of_rest_eq_nil hend]

/-- A decoder that counts: it answers first with no byte, then with more than are left, and from then on
with two. The range lies across the top of the address space. -/
theorem drain_ofRange_tiles_counting :
    let lengths : Nat → Nat := fun d => if d = 0 then 0 else if d = 1 then 9 else 2
    let e : Engine Unit Nat :=
      { name := "counting", supports := fun _ => true, start := fun _ _ shared => (.ok 0, shared)
        decode := fun d code address =>
          (some { address, bytes := PlainEngine.padded code (lengths d), mnemonic := "op",
                  operandText := "", operands := [] }, d + 1) }
    let image : Array UInt8 := #[0xaa, 1, 2, 3, 4, 5, 0xaa]
    1 ≤ 6 ∧ 6 ≤ image.size ∧ e.start .x86 .little () = (.ok 0, ()) ∧ e.Copies 0 ∧
      ∃ s, ofRange e .x86 .little 0xfffffffffffffffd image 1 6 () = (.ok s, ()) ∧
        (drain e s ()).1.flatMap (·.bytes) = [1, 2, 3, 4, 5] ∧
        totalLength (drain e s ()).1 = 5 := by
  intro lengths e image
  have hcopies : e.Copies 0 := by
    intro questions code address i hi hle
    have hi : _ = i := Option.some.inj hi
    subst hi
    simp only [Instruction.length, PlainEngine.length_padded] at hle ⊢
    exact ⟨trivial, PlainEngine.padded_of_le hle⟩
  have hopen : e.start .x86 .little () = (.ok 0, ()) := rfl
  obtain ⟨s, hs, -, htiles, -⟩ := drain_ofRange_tiles 0xfffffffffffffffd
    (show 1 ≤ 6 by decide) (show 6 ≤ image.size by decide) hopen
  exact ⟨by decide, by decide, hopen, hcopies, s, hs, htiles.bytes hcopies, htiles.total⟩

end Stream

end ElfAtlas
