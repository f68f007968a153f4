import ElfAtlas.Json.Parse
import ElfAtlas.Proofs.Json.Tokens

/-!
A value that has a text is read back from it. The text of a value is cut into the value's tokens
whatever the indentation, and the descent through these tokens builds the value again; twice the number
of the tokens bounds its depth.
-/

namespace ElfAtlas.Json

/-- Values that a text can stand for: every literal is a number, and there is no unpaired surrogate. -/
inductive IsWritable : Json → Prop
  | null : IsWritable null
  | bool (b : Bool) : IsWritable (bool b)
  | number {literal : String} (h : isNumber literal.toList) : IsWritable (number literal)
  | string (s : String) : IsWritable (string s)
  | array {items : List Json} (h : ∀ item ∈ items, IsWritable item) : IsWritable (array items)
  | object {members : List (String × Json)} (h : ∀ m ∈ members, IsWritable m.2) :
    IsWritable (object members)

mutual

def toTokens : Json → List Token
  | null => [.null]
  | bool b => [.bool b]
  | number literal => [.number literal]
  | string s => [.text (some s)]
  | unreadable => [.text (some "")]
  | array [] => [.openBracket, .closeBracket]
  | array (item :: rest) => .openBracket :: toTokens item ++ itemTokens rest
  | object [] => [.openBrace, .closeBrace]
  | object ((key, item) :: rest) =>
    .openBrace :: .text (some key) :: .colon :: toTokens item ++ memberTokens rest

def itemTokens : List Json → List Token
  | [] => [.closeBracket]
  | item :: rest => .comma :: toTokens item ++ itemTokens rest

def memberTokens : List (String × Json) → List Token
  | [] => [.closeBrace]
  | (key, item) :: rest => .comma :: .text (some key) :: .colon :: toTokens item ++ memberTokens rest

end

/-! ### From characters to tokens -/

/-- Wherever it stands, the text of the value is cut into the tokens of the value. -/
def IsCutWell (j : Json) : Prop :=
  ∀ level rest, EndsNumber rest →
    tokens (prettyChars level j ++ rest) = (tokens rest).map (j.toTokens ++ ·)

theorem endsNumber_prettyItems (level : Nat) (items : List Json) (rest : List Char) :
    EndsNumber (prettyItems level items ++ rest) := by
  cases items <;> simp [EndsNumber, prettyItems, newline, isNumberChar]

theorem endsNumber_prettyMembers (level : Nat) (members : List (String × Json)) (rest : List Char) :
    EndsNumber (prettyMembers level members ++ rest) := by
  cases members <;> simp [EndsNumber, prettyMembers, newline, isNumberChar]

theorem tokens_prettyItems {items : List Json} (h : ∀ item ∈ items, item.IsCutWell) (level : Nat)
    (rest : List Char) :
    tokens (prettyItems level items ++ rest) = (tokens rest).map (itemTokens items ++ ·) := by
  induction items with
  | nil =>
    rw [prettyItems, List.append_assoc, tokens_newline, List.singleton_append, tokens]
    rfl
  | cons item items ih =>
    have hitem := h item List.mem_cons_self
    have hitems := ih fun i hi => h i (List.mem_cons_of_mem item hi)
    have hend := endsNumber_prettyItems level items rest
    simp only [prettyItems, List.cons_append, List.append_assoc]
    rw [tokens, tokens_newline, hitem _ _ hend, hitems]
    simp [itemTokens, Function.comp_def]

theorem tokens_key (key : String) (rest : List Char) :
    tokens (quote key ++ ':' :: ' ' :: rest)
      = (tokens rest).map (.text (some key) :: .colon :: ·) := by
  rw [tokens_quote, tokens, tokens_blank, Option.map_map]
  rfl

theorem tokens_prettyMembers {members : List (String × Json)} (h : ∀ m ∈ members, m.2.IsCutWell)
    (level : Nat) (rest : List Char) :
    tokens (prettyMembers level members ++ rest)
      = (tokens rest).map (memberTokens members ++ ·) := by
  induction members with
  | nil =>
    rw [prettyMembers, List.append_assoc, tokens_newline, List.singleton_append, tokens]
    rfl
  | cons m members ih =>
    obtain ⟨key, item⟩ := m
    have hitem : item.IsCutWell := h (key, item) List.mem_cons_self
    have hmembers := ih fun m hm => h m (List.mem_cons_of_mem _ hm)
    have hend := endsNumber_prettyMembers level members rest
    simp only [prettyMembers, List.cons_append, List.append_assoc]
    rw [tokens, tokens_newline, tokens_key, hitem _ _ hend, hmembers]
    simp [memberTokens, Function.comp_def]

theorem IsWritable.isCutWell {j : Json} (h : j.IsWritable) : j.IsCutWell := by
  induction h with
  | null =>
    intro level rest _
    simp [prettyChars, tokens, toTokens]
  | bool b =>
    intro level rest _
    cases b <;> simp [prettyChars, tokens, toTokens]
  | number h =>
    intro level rest hrest
    rw [prettyChars, tokens_literal h hrest]
    simp [toTokens]
  | string s =>
    intro level rest _
    rw [prettyChars, tokens_quote]
    rfl
  | @array items h ih =>
    intro level rest _
    cases items with
    | nil => simp [prettyChars, tokens, toTokens, Function.comp_def]
    | cons item items =>
      have hitem := ih item List.mem_cons_self
      have hend := endsNumber_prettyItems level items rest
      have hitems := tokens_prettyItems (fun i hi => ih i (List.mem_cons_of_mem item hi)) level rest
      simp only [prettyChars, List.cons_append, List.append_assoc]
      rw [tokens, tokens_newline, hitem _ _ hend, hitems]
      simp [toTokens, Function.comp_def]
  | @object members h ih =>
    intro level rest _
    cases members with
    | nil => simp [prettyChars, tokens, toTokens, Function.comp_def]
    | cons m members =>
      obtain ⟨key, item⟩ := m
      have hitem : item.IsCutWell := ih (key, item) List.mem_cons_self
      have hend := endsNumber_prettyMembers level members rest
      have hmembers := tokens_prettyMembers (fun m hm => ih m (List.mem_cons_of_mem _ hm)) level rest
      simp only [prettyChars, List.cons_append, List.append_assoc]
      rw [tokens, tokens_newline, tokens_key, hitem _ _ hend, hmembers]
      simp [toTokens, Function.comp_def]

/-! ### From tokens to values -/

/-- With twice the number of its tokens as a bound, the value at the front of the tokens is read. -/
def IsReadBack (j : Json) : Prop :=
  ∀ fuel ts, 2 * j.toTokens.length ≤ fuel → value? fuel (j.toTokens ++ ts) = some (j, ts)

/-- No value starts with the bracket that ends an array, so an array with items is not read as an empty
one. -/
theorem toTokens_append_ne (j : Json) (ts rest : List Token) :
    j.toTokens ++ ts ≠ .closeBracket :: rest := by
  fun_cases toTokens j <;> exact nofun

theorem items?_itemTokens {item : Json} {items : List Json} (h : ∀ i ∈ item :: items, i.IsReadBack)
    {fuel : Nat} {ts : List Token}
    (hfuel : 2 * (item.toTokens.length + (itemTokens items).length) ≤ fuel) :
    items? fuel (item.toTokens ++ (itemTokens items ++ ts)) = some (item :: items, ts) := by
  have hitem := h item List.mem_cons_self
  induction items generalizing item fuel with
  | nil =>
    simp only [itemTokens, List.length_singleton] at hfuel
    cases fuel with
    | zero => omega
    | succ fuel =>
      rw [items?, hitem fuel _ (by omega)]
      rfl
  | cons next items ih =>
    simp only [itemTokens, List.length_cons, List.length_append] at hfuel
    cases fuel with
    | zero => omega
    | succ fuel =>
      have hitems : items? fuel (next.toTokens ++ (itemTokens items ++ ts))
          = some (next :: items, ts) :=
        ih (fun i hi => h i (List.mem_cons_of_mem item hi)) (by omega)
          (h next (List.mem_cons_of_mem item List.mem_cons_self))
      rw [items?, hitem fuel _ (by omega)]
      simp [itemTokens, hitems]

def readMembers (members : List (String × Json)) : List (Option String × Json) :=
  members.map fun (key, item) => (some key, item)

theorem ofMembers_readMembers (members : List (String × Json)) :
    ofMembers (readMembers members) = .object members := by
  have : (readMembers members).mapM (fun m => m.1.map (·, m.2)) = some members := by
    induction members with
    | nil => rfl
    | cons m members ih => simp_all [readMembers]
  rw [ofMembers, this]

theorem members?_memberTokens {key : String} {item : Json} {members : List (String × Json)}
    (h : ∀ m ∈ (key, item) :: members, m.2.IsReadBack) {fuel : Nat} {ts : List Token}
    (hfuel : 2 * (item.toTokens.length + (memberTokens members).length) ≤ fuel) :
    members? fuel (.text (some key) :: .colon :: (item.toTokens ++ (memberTokens members ++ ts)))
      = some (readMembers ((key, item) :: members), ts) := by
  have hitem : item.IsReadBack := h (key, item) List.mem_cons_self
  induction members generalizing key item fuel with
  | nil =>
    simp only [memberTokens, List.length_singleton] at hfuel
    cases fuel with
    | zero => omega
    | succ fuel =>
      rw [members?, hitem fuel _ (by omega)]
      rfl
  | cons next members ih =>
    obtain ⟨nextKey, next⟩ := next
    simp only [memberTokens, List.length_cons, List.length_append] at hfuel
    cases fuel with
    | zero => omega
    | succ fuel =>
      have hmembers : members? fuel
          (.text (some nextKey) :: .colon :: (next.toTokens ++ (memberTokens members ++ ts)))
          = some (readMembers ((nextKey, next) :: members), ts) :=
        ih (fun m hm => h m (List.mem_cons_of_mem _ hm)) (by omega)
          (h (nextKey, next) (List.mem_cons_of_mem _ List.mem_cons_self))
      rw [members?, hitem fuel _ (by omega)]
      simp [memberTokens, hmembers, readMembers]

theorem IsWritable.isReadBack {j : Json} (h : j.IsWritable) : j.IsReadBack := by
  induction h with
  | null => exact fun _ _ _ => by simp [toTokens, value?]
  | bool b => exact fun _ _ _ => by simp [toTokens, value?]
  | number h => exact fun _ _ _ => by simp [toTokens, value?]
  | string s => exact fun _ _ _ => by simp [toTokens, value?]
  | @array items h ih =>
    intro fuel ts hfuel
    cases items with
    | nil => simp [toTokens, value?]
    | cons item items =>
      simp only [toTokens, List.cons_append, List.length_cons, List.length_append] at hfuel
      cases fuel with
      | zero => omega
      | succ fuel =>
        have hitems : items? fuel (item.toTokens ++ (itemTokens items ++ ts))
            = some (item :: items, ts) :=
          items?_itemTokens ih (by omega)
        simp only [toTokens, List.cons_append, List.append_assoc]
        rw [value?, hitems]
        · rfl
        · exact toTokens_append_ne item _
  | @object members h ih =>
    intro fuel ts hfuel
    cases members with
    | nil => simp [toTokens, value?]
    | cons m members =>
      obtain ⟨key, item⟩ := m
      simp only [toTokens, List.cons_append, List.length_cons, List.length_append] at hfuel
      cases fuel with
      | zero => omega
      | succ fuel =>
        have hmembers : members? fuel
            (.text (some key) :: .colon :: (item.toTokens ++ (memberTokens members ++ ts)))
            = some (readMembers ((key, item) :: members), ts) :=
          members?_memberTokens ih (by omega)
        simp only [toTokens, List.cons_append, List.append_assoc]
        rw [value?, hmembers]
        · simp [ofMembers_readMembers]
        · exact nofun

/-- Reading undoes writing. -/
theorem parse?_pretty {j : Json} (h : j.IsWritable) : parse? j.pretty = some j := by
  have htokens : tokens (prettyChars 0 j) = some j.toTokens := by
    have := h.isCutWell 0 [] (by simp [EndsNumber])
    simpa [tokens] using this
  have hvalue : value? (2 * j.toTokens.length) j.toTokens = some (j, []) := by
    have := h.isReadBack (2 * j.toTokens.length) [] (Nat.le_refl _)
    simpa using this
  simp [parse?, pretty, htokens, hvalue]

/-! ### Natural numbers -/

/-- Only zero is written with a zero in front. -/
theorem eq_zero_of_head?_toDigits {n : Nat} (h : (Nat.toDigits 10 n).head? = some '0') : n = 0 := by
  induction n using Nat.strongRecOn with
  | _ n ih =>
    by_cases hn : n < 10
    · rw [Nat.toDigits_of_lt_base hn] at h
      simpa using h
    · have hstep := Nat.toDigits_of_base_le (b := 10) (n := n) (by decide) (by omega)
      obtain ⟨c, cs, hcs⟩ := List.exists_cons_of_ne_nil (Nat.toDigits_ne_nil (n := n / 10) (b := 10))
      have : n / 10 = 0 := by
        apply ih (n / 10) (by omega)
        rw [hstep, hcs] at h
        rwa [hcs]
      omega

theorem isNumber_toDigits (n : Nat) : isNumber (Nat.toDigits 10 n) := by
  obtain ⟨c, cs, hcs⟩ := List.exists_cons_of_ne_nil (Nat.toDigits_ne_nil (n := n) (b := 10))
  have hdigits : ∀ d ∈ c :: cs, d.isDigit := fun d hd =>
    Nat.isDigit_of_mem_toDigits (by decide) (by decide) (hcs ▸ hd)
  by_cases hzero : c = '0'
  · have : n = 0 := eq_zero_of_head?_toDigits (by rw [hcs, hzero]; rfl)
    subst this
    decide
  · have htake : ((c :: cs) ++ []).takeWhile Char.isDigit = c :: cs := by
      rw [List.takeWhile_append_of_pos hdigits]
      simp
    have hdrop : ((c :: cs) ++ []).dropWhile Char.isDigit = [] := by
      rw [List.dropWhile_append_of_pos hdigits]
      rfl
    rw [List.append_nil] at htake hdrop
    have hall : isDigits (c :: cs) := by simpa [isDigits] using hdigits
    rw [hcs, isNumber, isUnsigned, htake, hdrop, hall]
    · rfl
    · exact fun _ h => hzero (List.cons.inj h).1
    · rintro _ h
      obtain ⟨rfl, -⟩ := List.cons.inj h
      exact absurd (hdigits '-' List.mem_cons_self) (by decide)

theorem isWritable_nat (n : Nat) : (nat n).IsWritable := by
  rw [nat, Nat.toString_eq_ofList_toDigits]
  exact .number (by simpa using isNumber_toDigits n)

theorem nat?_nat (n : Nat) : (nat n).nat? = some n := by
  have hdigits : (Nat.toDigits 10 n).all Char.isDigit :=
    List.all_eq_true.2 fun _ hc => Nat.isDigit_of_mem_toDigits (by decide) (by decide) hc
  have hvalue : digitsValue (Nat.toDigits 10 n) = n := by
    have := Nat.ofDigitChars_ten_toDigits (n := n)
    rwa [Nat.ofDigitChars_eq_foldl] at this
  rw [nat, Nat.toString_eq_ofList_toDigits, nat?, String.toList_ofList, if_pos hdigits, hvalue]

end ElfAtlas.Json
