import ElfAtlas.Proofs.Analysis.Pieces
import ElfAtlas.Proofs.Code.Tiling
import ElfAtlas.Proofs.Reader

/-!
Which bytes of a range are decoded in pieces, whatever the decoders answer. The pieces follow each other
without a gap from the start of the range on, and the instructions of each piece tile it. They end where
the range ends or at the last address, whichever comes first: the byte at the last address, and those
behind it, belong to no piece.
-/

namespace ElfAtlas

open Instruction

variable {σ δ : Type} {e : Engine σ δ} {arch : Architecture} {order : ByteOrder}

namespace Stream

/-- A stream with an open decoder opens no other. -/
theorem shared_drain {s : Stream δ} {d : δ} (hd : s.decoder = some d) (shared : σ) :
    (drain e s shared).2.2 = shared := by
  induction hn : s.rest.length using Nat.strongRecOn generalizing s d with
  | ind n ih =>
      by_cases hrest : s.rest = []
      · rw [drain_of_none (next_of_rest_eq_nil hrest shared)]
      · have hlen := length_item e s.arch d s.rest s.address hrest
        rw [drain_of_some (next_of_decoder hd hrest shared)]
        refine ih _ ?_ (decoder_advance s _ _) rfl
        rw [rest_advance, List.length_drop]
        omega

/-- A stream over code has a decoder and tiles the code, unless no decoder can be opened. -/
theorem start_cases (e : Engine σ δ) (arch : Architecture) (order : ByteOrder) (base : UInt64)
    (code : List UInt8) (shared : σ) :
    (∃ d s shared', e.start arch order shared = (.ok d, shared') ∧
      start e arch order base code shared = (.ok s, shared') ∧
      Tiles e arch d base code (drain e s shared').1 ∧ (drain e s shared').2.2 = shared') ∨
    ∃ fault, (e.start arch order shared).1 = .error fault ∧
      (start e arch order base code shared).1 = .error fault := by
  rcases hopen : e.start arch order shared with ⟨opening, shared'⟩
  cases opening with
  | ok d =>
      let s : Stream δ := { (ofCode arch order base code : Stream δ) with decoder := some d }
      have hd : s.decoder = some d := rfl
      have haddress : s.address = base := UInt64.add_zero base
      have hitems := (items_drain (e := e) hd shared').1
      rw [haddress] at hitems
      refine .inl ⟨d, s, shared', rfl, ?_, hitems.tiles, shared_drain hd shared'⟩
      rw [start, hopen]
  | error fault => exact .inr ⟨fault, rfl, by rw [start, hopen]⟩

end Stream

namespace Analysis

variable {a : Analysis}

/-- Instructions of consecutive pieces of code. Each piece has a decoder of its own, and its
instructions tile it. -/
inductive Pieced (e : Engine σ δ) (arch : Architecture) (order : ByteOrder) :
    UInt64 → List UInt8 → List Instruction → Prop
  | done (base : UInt64) : Pieced e arch order base [] []
  | piece {base : UInt64} {front back : List UInt8} {is js : List Instruction} {d : δ}
      {shared shared' : σ} (hfront : front ≠ [])
      (hopen : e.start arch order shared = (.ok d, shared'))
      (htiles : Stream.Tiles e arch d base front is)
      (hmore : Pieced e arch order (base + UInt64.ofNat front.length) back js) :
      Pieced e arch order base (front ++ back) (is ++ js)

theorem Pieced.totalLength_eq {base : UInt64} {code : List UInt8} {is : List Instruction}
    (h : Pieced e arch order base code is) : totalLength is = code.length := by
  induction h with
  | done base => rfl
  | piece hfront hopen htiles hmore ih => rw [totalLength_append, List.length_append, htiles.total, ih]

/-- How decoding code in pieces ends: with the instructions of all pieces, or at a piece for which no
decoder can be opened. -/
def PiecesEnd (e : Engine σ δ) (arch : Architecture) (order : ByteOrder) (base : UInt64)
    (code : List UInt8) (shared : σ) : Except Fault (List Instruction) → Prop
  | .ok is => Pieced e arch order base code is
  | .error fault => ∃ openings, (e.start arch order (e.opened shared openings)).1 = .error fault

theorem codeAt_append (a : Analysis) (offset m n : Nat) :
    a.codeAt offset m ++ a.codeAt (offset + m) n = a.codeAt offset (m + n) := by
  rw [codeAt, codeAt, codeAt, List.take_add, List.drop_drop]

/-- One piece more in front. -/
theorem piecesEnd_cons {address offset p q : Nat} (hp : address ≤ p) (hpq : p < q)
    (hfits : offset + (q - address) ≤ a.image.size) (hword : offset + (q - address) < UInt64.size)
    {rest : List (Nat × Nat)} {back : List UInt8}
    (hrest : ∀ shared, PiecesEnd e arch a.header.order (UInt64.ofNat q) back shared
      (decodePieces e a arch address offset rest shared).1) (shared : σ) :
    PiecesEnd e arch a.header.order (UInt64.ofNat p)
      (a.codeAt (offset + (p - address)) (q - p) ++ back) shared
      (decodePieces e a arch address offset ((p, q) :: rest) shared).1 := by
  have hlength := length_codeAt (a := a)
    (show offset + (p - address) + (q - p) ≤ a.image.size by omega)
  have hbase : UInt64.ofNat p + UInt64.ofNat (q - p) = UInt64.ofNat q := by
    rw [← UInt64.ofNat_add, Nat.add_sub_cancel' (Nat.le_of_lt hpq)]
  have hstream := streamAt_eq_start e arch (UInt64.ofNat p) shared
    (show offset + (p - address) + (q - p) ≤ a.image.size by omega) (by omega)
  rw [decodePieces]
  obtain ⟨d, s, shared', hopen, hstart, htiles, hshared⟩ | ⟨fault, hopen, hstart⟩ :=
    Stream.start_cases e arch a.header.order (UInt64.ofNat p)
      (a.codeAt (offset + (p - address)) (q - p)) shared
  · simp only [hstream, hstart, hshared]
    have hmore := hrest shared'
    cases hresult : (decodePieces e a arch address offset rest shared').1 with
    | ok js =>
        rw [hresult] at hmore
        refine .piece (fun hnil => ?_) hopen htiles ?_
        · rw [hnil, List.length_nil] at hlength
          omega
        · rwa [hlength, hbase]
    | error fault =>
        rw [hresult] at hmore
        obtain ⟨openings, hfault⟩ := hmore
        refine ⟨(arch, a.header.order) :: openings, ?_⟩
        rwa [Engine.opened, List.foldl_cons, hopen]
  · rw [hstream]
    split
    · rename_i heq
      rw [heq] at hstart
      cases hstart
      exact ⟨[], hopen⟩
    · rename_i heq
      rw [heq] at hstart
      cases hstart

/-- Pieces between ascending points cover the code from the first point to the last. -/
theorem piecesEnd_decodePieces {address offset p stop : Nat} {inner : List Nat} (hp : address ≤ p)
    (hsorted : (p :: inner).Pairwise (· < ·)) (hinner : ∀ x ∈ inner, x < stop) (hstop : p ≤ stop)
    (hfits : offset + (stop - address) ≤ a.image.size)
    (hword : offset + (stop - address) < UInt64.size) (shared : σ) :
    PiecesEnd e arch a.header.order (UInt64.ofNat p)
      (a.codeAt (offset + (p - address)) (stop - p)) shared
      (decodePieces e a arch address offset (pieces (p :: inner ++ [stop])) shared).1 := by
  induction inner generalizing p shared with
  | nil =>
      by_cases hlt : p < stop
      · have hrest (shared : σ) : PiecesEnd e arch a.header.order (UInt64.ofNat stop) [] shared
            (decodePieces e a arch address offset (pieces [stop]) shared).1 := Pieced.done _
        rw [List.singleton_append, pieces_of_lt hlt, ← List.append_nil (a.codeAt _ _)]
        exact piecesEnd_cons hp hlt hfits hword hrest shared
      · rw [Nat.sub_eq_zero_of_le (Nat.le_of_not_lt hlt), List.singleton_append, pieces,
          if_neg hlt]
        exact Pieced.done _
  | cons q inner ih =>
      obtain ⟨hpq, hsorted'⟩ := List.pairwise_cons.1 hsorted
      obtain ⟨hq, hinner'⟩ := List.forall_mem_cons.1 hinner
      have hlt := hpq q List.mem_cons_self
      have hrest := ih (by omega) hsorted' hinner' (Nat.le_of_lt hq)
      have hoffset : offset + (q - address) = offset + (p - address) + (q - p) := by omega
      have hcode : stop - p = q - p + (stop - q) := by omega
      rw [hoffset] at hrest
      rw [hcode, ← codeAt_append, List.cons_append, List.cons_append, pieces_of_lt hlt]
      exact piecesEnd_cons hp hlt (by omega) (by omega) hrest shared

/-- A stream over a range of the image has the bytes of that range. -/
theorem streamAt_eq_ok {offset length : Nat} {base : UInt64} {shared shared' : σ} {s : Stream δ}
    (h : streamAt e a arch offset length base shared = (.ok s, shared')) :
    offset + length ≤ a.image.size ∧ offset + length < UInt64.size ∧ s.arch = arch ∧
      s.code = a.codeAt offset length := by
  have hrange : offset + length ≤ a.image.size ∧ offset + length < UInt64.size := by
    rw [streamAt] at h
    split at h
    · cases h
    · rename_i stop hsum
      obtain ⟨rfl, hword⟩ := checkedAdd_eq_ok_iff.1 hsum
      rw [Stream.ofRange] at h
      split at h
      · cases h
      · exact ⟨by omega, hword⟩
  refine ⟨hrange.1, hrange.2, ?_⟩
  rw [streamAt_eq_start e arch base shared hrange.1 hrange.2, Stream.start] at h
  split at h
  · cases h
    exact ⟨rfl, rfl⟩
  · cases h

/-- A range no longer than the window is decoded in pieces over the same bytes as by one stream, up to
the last address. There is a result unless a decoder cannot be opened, or the code is of fixed width and
the chunk size cannot be rounded up to words. -/
theorem disassembleParallel_covers {address : UInt64} {length : Nat} {shared shared' : σ}
    {stream : Stream δ} (hlength : length ≤ a.config.disasm.windowBytes.toNat)
    (hstream : disassembleRange e a address length shared = (.ok stream, shared')) :
    let reached := min stream.rangeLength (UInt64.size - 1 - address.toNat)
    (∃ is, (disassembleParallel e a address length shared).1 = some (.ok is) ∧
      Pieced e stream.arch a.header.order address (stream.code.take reached) is ∧
      totalLength is = reached) ∨
    (∃ fault openings, (disassembleParallel e a address length shared).1 = some (.error fault) ∧
      (e.start stream.arch a.header.order (e.opened shared openings)).1 = .error fault) ∨
    ((disassembleParallel e a address length shared).1 = none ∧ stream.arch.isFixedWidth = true ∧
      UInt64.size - 4 < a.config.disasm.parallelChunkBytes.toNat) := by
  intro reached
  rw [disassembleRange] at hstream
  split at hstream
  · cases hstream
  rename_i arch b hlocated
  simp only [Nat.min_eq_left hlength] at hstream
  obtain ⟨hfits, hword, harch, hcode⟩ := streamAt_eq_ok hstream
  have hrange : stream.rangeLength = a.clampedLength b length := by
    rw [Stream.rangeLength, hcode, length_codeAt hfits]
  have haddress := address.toNat_lt
  have hstop : min (address.toNat + a.clampedLength b length) (UInt64.size - 1) =
      address.toNat + reached := by
    simp only [reached, hrange, UInt64.size]
    omega
  have hreached : reached ≤ a.clampedLength b length := hrange ▸ Nat.min_le_left _ _
  have hbytes : stream.code.take reached = a.codeAt b.offset.toNat reached := by
    rw [hcode, take_codeAt a _ hreached]
  rw [disassembleParallel, hlocated, hbytes, harch]
  simp only [hstop]
  cases hpoints : a.splitPoints? arch address.toNat (address.toNat + reached) with
  | none => exact .inr (.inr ⟨rfl, splitPoints?_eq_none_iff.1 hpoints⟩)
  | some points =>
      obtain ⟨inner, rfl, hsorted, hinner⟩ := splitPoints?_eq_some hpoints
      have hpieces : PiecesEnd e arch a.header.order (UInt64.ofNat address.toNat)
          (a.codeAt (b.offset.toNat + (address.toNat - address.toNat))
            (address.toNat + reached - address.toNat)) shared
          (decodePieces e a arch address.toNat b.offset.toNat
            (pieces (address.toNat :: inner ++ [address.toNat + reached])) shared).1 :=
        piecesEnd_decodePieces (Nat.le_refl _) hsorted (fun x hx => (hinner x hx).1)
          (Nat.le_add_right _ _) (by omega) (by omega) shared
      rw [Nat.sub_self, Nat.add_zero, Nat.add_sub_cancel_left, UInt64.ofNat_toNat] at hpieces
      simp only
      cases hresult : (decodePieces e a arch address.toNat b.offset.toNat
          (pieces (address.toNat :: inner ++ [address.toNat + reached])) shared).1 with
      | ok is =>
          rw [hresult] at hpieces
          refine .inl ⟨is, rfl, hpieces, ?_⟩
          rw [hpieces.totalLength_eq, length_codeAt (by omega)]
      | error fault =>
          rw [hresult] at hpieces
          obtain ⟨openings, hfault⟩ := hpieces
          exact .inr (.inl ⟨fault, openings, rfl, hfault⟩)

/-- A range of seven bytes across the top of the address space, cut at a function: the five bytes up to
the last address are decoded. -/
theorem disassembleParallel_covers_across_top :
    let patterns : List PlainEngine.Pattern := [⟨[0x0f, 0x05], 2, "syscall", [], ""⟩]
    let start : Symbol :=
      { name := "start", demangled := none, value := 0xfffffffffffffffd, size := 2, kind := .func,
        binding := .globalScope, visibility := .default, sectionIndex := 1, origin := .staticTable,
        index := 1, tableSection := 1 }
    let a := ofCode 62 { disasm := { parallelChunkBytes := 2 } } 0xfffffffffffffffa [start]
      [0x0f, 0x05, 0x06, 0x0f, 0x05, 0x0f, 0x05]
    let e := PlainEngine.patterns "table" (fun _ => true) patterns
    7 ≤ a.config.disasm.windowBytes.toNat ∧
      ∃ stream is, disassembleRange e a 0xfffffffffffffffa 7 none = (.ok stream, none) ∧
        stream.rangeLength = 7 ∧
        (disassembleParallel e a 0xfffffffffffffffa 7 none).1 = some (.ok is) ∧
        totalLength is = 5 := by
  intro patterns start a e
  have hopen (openings : List (Architecture × ByteOrder)) :
      ∃ d, (e.start .x86_64 .little (e.opened none openings)).1 = .ok d := by
    have hserves : e.Serves .x86_64 .little (PlainEngine.decodePattern patterns) none :=
      Engine.serves_ofDecoder "table" (fun _ _ => PlainEngine.decodePattern patterns) .little rfl
    obtain ⟨d, hd, -⟩ := hserves openings
    exact ⟨d, hd⟩
  have hwindow : 7 ≤ a.config.disasm.windowBytes.toNat := by decide
  obtain ⟨stream, hstream, hrange, harch⟩ :
      ∃ stream, disassembleRange e a 0xfffffffffffffffa 7 none = (.ok stream, none) ∧
        stream.rangeLength = 7 ∧ stream.arch = .x86_64 :=
    ⟨_, rfl, rfl, rfl⟩
  obtain ⟨is, hdecoded, -, htotal⟩ | ⟨fault, openings, -, hfault⟩ | ⟨-, hfixed, -⟩ :=
    disassembleParallel_covers hwindow hstream
  · refine ⟨hwindow, stream, is, hstream, hrange, hdecoded, ?_⟩
    rw [htotal, hrange]
    decide
  · obtain ⟨d, hd⟩ := hopen openings
    rw [harch, show a.header.order = .little from rfl, hd] at hfault
    cases hfault
  · rw [harch] at hfixed
    cases hfixed

/-- A single byte at the last address can be decoded by a stream, but is dropped in pieces. -/
theorem disassembleParallel_drops_last_address :
    let a := ofCode 62 {} 0xffffffffffffffff [] [0x90]
    let e := PlainEngine.patterns "table" (fun _ => true) [⟨[0x90], 1, "nop", [], ""⟩]
    1 ≤ a.config.disasm.windowBytes.toNat ∧
      ∃ stream is, disassembleRange e a 0xffffffffffffffff 1 none = (.ok stream, none) ∧
        stream.rangeLength = 1 ∧
        (disassembleParallel e a 0xffffffffffffffff 1 none).1 = some (.ok is) ∧
        totalLength is ≠ stream.rangeLength := by
  intro a e
  have hlocated : a.located 0xffffffffffffffff 1 = .ok (.x86_64, ⟨0, 1⟩) := rfl
  have hstop : min ((0xffffffffffffffff : UInt64).toNat + a.clampedLength ⟨0, 1⟩ 1)
      (UInt64.size - 1) = (0xffffffffffffffff : UInt64).toNat := by decide
  have hpoints (p : Nat) : a.splitPoints? .x86_64 p p = some [p, p] := by
    simp [splitPoints?, Architecture.isFixedWidth, functionStarts, a, ofCode, spaced]
  refine ⟨by decide, _, [], rfl, rfl, ?_, by decide⟩
  rw [disassembleParallel, hlocated]
  simp only [hstop, hpoints, pieces, Nat.lt_irrefl, if_false]
  rfl

end Analysis

end ElfAtlas
