import ElfAtlas.Analysis.Disassembly
import ElfAtlas.Proofs.Analysis.CodeBytes
import ElfAtlas.Proofs.Analysis.SplitPoints
import ElfAtlas.Proofs.Code.PlainDecoders

/-!
Decoding a range in pieces yields what one stream over the range yields. The invariant from piece to
piece is that the points still to come are instruction boundaries of the sweep over what is left.
-/

namespace ElfAtlas

namespace Analysis

open Instruction

variable {σ δ : Type} {e : Engine σ δ} {f : PureDecoder} {a : Analysis} {arch : Architecture}

theorem pieces_of_lt {p q : Nat} (h : p < q) (rest : List Nat) :
    pieces (p :: q :: rest) = (p, q) :: pieces (q :: rest) := by
  rw [pieces, if_pos h]

theorem decodePieces_cons (address offset : Nat) {p q : Nat} {rest : List (Nat × Nat)}
    {shared shared' : σ} {s : Stream δ} {is js : List Instruction}
    (hstream : streamAt e a arch (offset + (p - address)) (q - p) (UInt64.ofNat p) shared =
      (.ok s, shared'))
    (hdrain : (s.drain e shared').1 = is) (hshared : (s.drain e shared').2.2 = shared')
    (hrest : (decodePieces e a arch address offset rest shared').1 = .ok js) :
    (decodePieces e a arch address offset ((p, q) :: rest) shared).1 = .ok (is ++ js) := by
  rw [decodePieces]
  simp only [hstream, hdrain, hshared, hrest]
  rfl

/-- Pieces that are cut at boundaries of the sweep from `p` on decode to that sweep: the first point cuts a
piece off, and what is left is swept from that point. -/
theorem decodePieces_eq_sweep (hf : f.IsCutStable arch) (himage : a.image.size < UInt64.size)
    {address offset n : Nat} (hfits : 0 < n → offset + n ≤ a.image.size) {p : Nat}
    {inner : List Nat} (hp : address ≤ p) (hstop : p ≤ address + n)
    (hsorted : (p :: inner).Pairwise (· < ·)) (hinner : ∀ x ∈ inner, x < address + n)
    (hboundary : ∀ x ∈ inner, IsBoundary
      (f.sweep arch (UInt64.ofNat p) ((a.codeAt offset n).drop (p - address))) (x - p))
    {shared : σ} (hs : e.Serves arch a.header.order f shared) :
    (decodePieces e a arch address offset (pieces (p :: inner ++ [address + n])) shared).1 =
      .ok (f.sweep arch (UInt64.ofNat p) ((a.codeAt offset n).drop (p - address))) := by
  induction inner generalizing p shared with
  | nil =>
      by_cases hlt : p < address + n
      · obtain ⟨s, shared', hstream, hs', hdrain, hshared⟩ := streamAt_eq_sweep hs (UInt64.ofNat p)
          (show offset + (p - address) + (address + n - p) ≤ a.image.size by omega) himage
        have hbytes : a.codeAt (offset + (p - address)) (address + n - p) =
            (a.codeAt offset n).drop (p - address) := by
          rw [drop_codeAt]
          congr 1
          omega
        rw [List.singleton_append, pieces_of_lt hlt,
          decodePieces_cons address offset hstream hdrain hshared rfl, hbytes, List.append_nil]
      · have hend : (a.codeAt offset n).drop (p - address) = [] := by
          refine List.drop_eq_nil_of_le ?_
          rw [codeAt, List.length_take]
          omega
        rw [hend, PureDecoder.sweep_nil, List.singleton_append, pieces, if_neg hlt]
        rfl
  | cons q inner ih =>
      obtain ⟨hpq, hsorted'⟩ := List.pairwise_cons.1 hsorted
      obtain ⟨hq, hinner'⟩ := List.forall_mem_cons.1 hinner
      have hlt := hpq q List.mem_cons_self
      have hcut := hboundary q List.mem_cons_self
      obtain ⟨s, shared', hstream, hs', hdrain, hshared⟩ := streamAt_eq_sweep hs (UInt64.ofNat p)
        (show offset + (p - address) + (q - p) ≤ a.image.size by omega) himage
      have hfront : a.codeAt (offset + (p - address)) (q - p) =
          ((a.codeAt offset n).drop (p - address)).take (q - p) := by
        rw [drop_codeAt, take_codeAt a _ (by omega)]
      have hback : ((a.codeAt offset n).drop (p - address)).drop (q - p) =
          (a.codeAt offset n).drop (q - address) := by
        rw [List.drop_drop]
        congr 1
        omega
      have haddress : UInt64.ofNat p + UInt64.ofNat (q - p) = UInt64.ofNat q := by
        rw [← UInt64.ofNat_add]
        congr 1
        omega
      have hlater : ∀ x ∈ inner, IsBoundary
          (f.sweep arch (UInt64.ofNat q) ((a.codeAt offset n).drop (q - address))) (x - q) := by
        intro x hx
        have hqx := (List.pairwise_cons.1 hsorted').1 x hx
        have hdrop := PureDecoder.isBoundary_drop hf hcut
          (hboundary x (List.mem_cons_of_mem q hx)) (by omega)
        rw [hback, haddress] at hdrop
        rwa [show x - p - (q - p) = x - q by omega] at hdrop
      have hrest := ih (by omega) (by omega) hsorted' hinner' hlater hs'
      rw [List.cons_append] at hrest
      rw [List.cons_append, List.cons_append, pieces_of_lt hlt,
        decodePieces_cons address offset hstream hdrain hshared hrest, hfront,
        PureDecoder.sweep_cut hf hcut, hback, haddress]

/-- The points between the ends of a range are boundaries of the sweep over it: between words, or at
the start of a function. -/
theorem isBoundary_of_splitPoint (hfixed : arch.isFixedWidth = true → f.IsWordwise)
    {address : UInt64} {code : List UInt8} {start stop : Nat}
    (hother : arch.isFixedWidth = false → ∀ s ∈ a.symbols, s.isFunction = true →
      s.isDefined = true → start < s.value.toNat → s.value.toNat < stop →
      IsBoundary (f.sweep arch address code) (s.value.toNat - start))
    {x : Nat} (hx : if arch.isFixedWidth then 4 ∣ x - start else x ∈ a.functionStarts start stop)
    (hcode : x - start ≤ code.length) : IsBoundary (f.sweep arch address code) (x - start) := by
  cases harch : arch.isFixedWidth with
  | true =>
      rw [harch, if_pos rfl] at hx
      exact (hfixed harch).isBoundary harch hx hcode
  | false =>
      rw [harch, if_neg (by simp)] at hx
      obtain ⟨⟨s, hmem, hfunction, hdefined, rfl⟩, hgt, hlt⟩ := mem_functionStarts.1 hx
      exact hother harch s hmem hfunction hdefined hgt hlt

/-- Decoding in pieces yields the instructions of one stream over the same bytes, for a range whose end
is still an address and a chunk size that can be rounded up to words. Words of four bytes can be cut
anywhere between words. Other code is cut at the starts of functions: they have to be instruction
boundaries, and what the decoder accepts or rejects must not depend on the bytes behind a cut. -/
theorem disassembleParallel_eq_stream {shared : σ} {address : UInt64} {length n : Nat} {b : Backing}
    (himage : a.image.size < UInt64.size) (hlocated : a.located address length = .ok (arch, b))
    (hn : a.clampedLength b length = n) (hreach : address.toNat + n < UInt64.size)
    (hstep : arch.isFixedWidth = true →
      (chunkStep? a.config.disasm.parallelChunkBytes.toNat).isSome = true)
    (hs : e.Serves arch a.header.order f shared)
    (hfixed : arch.isFixedWidth = true → f.IsWordwise)
    (hother : arch.isFixedWidth = false → f.IsPrefixStable ∧
      ∀ s ∈ a.symbols, s.isFunction = true → s.isDefined = true →
        address.toNat < s.value.toNat → s.value.toNat < address.toNat + n →
        IsBoundary (f.sweep arch address (a.codeAt b.offset.toNat n))
          (s.value.toNat - address.toNat)) :
    ∃ stream shared',
      Stream.start e arch a.header.order address (a.codeAt b.offset.toNat n) shared =
        (.ok stream, shared') ∧
      (stream.drain e shared').1 = f.sweep arch address (a.codeAt b.offset.toNat n) ∧
      (disassembleParallel e a address length shared).1 =
        some (.ok (stream.drain e shared').1) := by
  obtain ⟨stream, shared', hstart, hs', hdrain⟩ :=
    Stream.start_eq hs address (a.codeAt b.offset.toNat n)
  refine ⟨stream, shared', hstart, (hdrain shared').1, ?_⟩
  have hfits : 0 < n → b.offset.toNat + n ≤ a.image.size := by
    rw [← hn, clampedLength, available]
    omega
  have hcut : f.IsCutStable arch := by
    cases harch : arch.isFixedWidth with
    | true => exact (hfixed harch).isCutStable harch
    | false => exact (hother harch).1.isCutStable harch
  have hstop : min (address.toNat + n) (UInt64.size - 1) = address.toNat + n := by omega
  have hbase : UInt64.ofNat address.toNat = address := UInt64.ofNat_toNat
  obtain ⟨points, hpoints⟩ := isSome_splitPoints? address.toNat (address.toNat + n) hstep
  obtain ⟨inner, rfl, hsorted, hinner⟩ := splitPoints?_eq_some hpoints
  have hboundary : ∀ x ∈ inner, IsBoundary
      (f.sweep arch address (a.codeAt b.offset.toNat n)) (x - address.toNat) := by
    intro x hx
    obtain ⟨hlt, hplace⟩ := hinner x hx
    have hgt := (List.pairwise_cons.1 hsorted).1 x hx
    refine isBoundary_of_splitPoint hfixed (fun harch => (hother harch).2) hplace ?_
    rw [length_codeAt (hfits (by omega))]
    omega
  have hdecode := decodePieces_eq_sweep hcut himage hfits (Nat.le_refl address.toNat) (by omega)
    hsorted (fun x hx => (hinner x hx).1)
    (by rwa [hbase, Nat.sub_self, List.drop_zero]) hs
  rw [hbase, Nat.sub_self, List.drop_zero] at hdecode
  rw [(hdrain shared').1, disassembleParallel, hlocated]
  simp only [hn, hstop, hpoints, hdecode]

/-- A function that starts behind a call of the system and an undecodable byte, and a chunk of two
bytes: the range is cut there, and the undecodable end stays where it is. And words in chunks of six bytes,
which hold two words; half a word is left at the end. -/
theorem disassembleParallel_eq_stream_functions :
    let patterns : List PlainEngine.Pattern :=
      [⟨[0x0f, 0x05], 2, "syscall", [], ""⟩, ⟨[0x90], 1, "nop", [], ""⟩]
    let start : Symbol :=
      { name := "start", demangled := none, value := 0x1003, size := 2, kind := .func,
        binding := .globalScope, visibility := .default, sectionIndex := 1, origin := .staticTable,
        index := 1, tableSection := 1 }
    let a := ofCode 62 { disasm := { parallelChunkBytes := 2 } } 0x1000 [start]
      [0x0f, 0x05, 0x06, 0x90, 0x90, 0x0f]
    let e := PlainEngine.patterns "table" (fun _ => true) patterns
    let words := ofCode 183 { disasm := { parallelChunkBytes := 6 } } 0x1000 []
      [0, 0, 0, 0, 1, 0, 0, 0, 2, 0, 0, 0, 0, 0]
    let e' := PlainEngine.words "word" fun _ => true
    (a.located 0x1000 64 = .ok (.x86_64, ⟨0, 6⟩) ∧
      a.splitPoints? .x86_64 0x1000 0x1006 = some [0x1000, 0x1003, 0x1006] ∧
      ∃ stream shared',
        Stream.start e .x86_64 .little 0x1000 (a.codeAt 0 6) none = (.ok stream, shared') ∧
        (stream.drain e shared').1 =
          (PlainEngine.decodePattern patterns).sweep .x86_64 0x1000 (a.codeAt 0 6) ∧
        (disassembleParallel e a 0x1000 64 none).1 = some (.ok (stream.drain e shared').1)) ∧
    words.located 0x1000 64 = .ok (.arm64, ⟨0, 14⟩) ∧
      words.splitPoints? .arm64 0x1000 0x100e = some [0x1000, 0x1008, 0x100e] ∧
      ∃ stream shared',
        Stream.start e' .arm64 .little 0x1000 (words.codeAt 0 14) none = (.ok stream, shared') ∧
        (stream.drain e' shared').1 =
          PureDecoder.sweep (PlainEngine.decodeWord .little) .arm64 0x1000 (words.codeAt 0 14) ∧
        (disassembleParallel e' words 0x1000 64 none).1 =
          some (.ok (stream.drain e' shared').1) := by
  intro patterns start a e words e'
  refine ⟨⟨rfl, ?_, ?_⟩, rfl, by cbv, ?_⟩
  · have hstarts : a.functionStarts 0x1000 0x1006 = [0x1003] := by
      simp [functionStarts, a, ofCode, start, Symbol.isFunction, Symbol.isDefined,
        List.eraseDups_cons]
    rw [splitPoints?, hstarts]
    rfl
  · have hlocated : a.located 0x1000 64 = .ok (.x86_64, ⟨0, 6⟩) := rfl
    have hserves : e.Serves .x86_64 .little (PlainEngine.decodePattern patterns) none :=
      Engine.serves_ofDecoder "table" (fun _ _ => PlainEngine.decodePattern patterns) .little rfl
    have hexact : PlainEngine.AreExact patterns := by
      simp [PlainEngine.AreExact, patterns]
    have hboundary : IsBoundary
        ((PlainEngine.decodePattern patterns).sweep .x86_64 0x1000 (a.codeAt 0 6)) (2 + (1 + 0)) :=
      PureDecoder.isBoundary_of_item (by decide) (by decide)
        (PureDecoder.isBoundary_of_item (by decide) (by decide) (isBoundary_zero _))
    refine disassembleParallel_eq_stream (by decide) hlocated rfl (by decide) (by decide) hserves
      (fun h => absurd h (by decide))
      fun _ => ⟨PlainEngine.decodePattern_isPrefixStable hexact, ?_⟩
    intro s hs _ _ _ _
    have hvalue : start.value.toNat - (0x1000 : UInt64).toNat = 2 + (1 + 0) := by decide
    rw [List.mem_singleton.1 hs, hvalue]
    exact hboundary
  · have hlocated : words.located 0x1000 64 = .ok (.arm64, ⟨0, 14⟩) := rfl
    have hserves : e'.Serves .arm64 .little (PlainEngine.decodeWord .little) none :=
      Engine.serves_ofDecoder "word" (fun _ order => PlainEngine.decodeWord order) .little rfl
    exact disassembleParallel_eq_stream (by decide) hlocated rfl (by decide) (fun _ => by decide)
      hserves (fun _ => PlainEngine.decodeWord_isWordwise .little) fun h => absurd h (by decide)

end Analysis

end ElfAtlas
