import PoolKeeper.Json.Codec
import PoolKeeper.Proofs.Digits

/-!
# Written JSON tokens are read again

* `Node.Stops`: text that no number goes on with; **`Node.number?_append`**: nothing else matters
  behind a number; `Node.number?_suffix`: what is left of one stood at its end;
* `Node.number?_ofInt`, `Node.numeric_text`: whole numbers, and the characters of the others;
* **`Node.string?_quotedChars`**: strings;
* `Node.value?_skipSpace`, `Node.stops_append`: white space.
-/

namespace PoolKeeper

namespace Node

variable {rest : List Char}

/-! ## Numbers -/

/-- A character that can stand in a number. -/
def isNumeric (c : Char) : Bool :=
  c.isDigit || c == '.' || c == 'e' || c == 'E' || c == '+' || c == '-'

/-- No number goes on with this text. -/
def Stops (rest : List Char) : Prop := ∀ c ∈ rest.head?, isNumeric c = false

theorem stops_nil : Stops [] := fun _ h => by cases h

theorem stops_cons {c : Char} (h : isNumeric c = false) : Stops (c :: rest) := by
  rintro _ ⟨⟩
  exact h

theorem Stops.not_digit (h : Stops rest) : ∀ c ∈ rest.head?, c.isDigit = false := by
  intro c hc
  have hn := h c hc
  simp only [isNumeric, Bool.or_eq_false_iff] at hn
  exact hn.1.1.1.1.1

/-- A result whose leftover text goes on. -/
def before {α : Type} (rest : List Char) (r : α × List Char) : α × List Char := (r.1, r.2 ++ rest)

theorem digits?_append (h : Stops rest) (cs : List Char) :
    digits? (cs ++ rest) = (digits? cs).map (before rest) := by
  rw [digits?, takeWhile_append_of_head h.not_digit, dropWhile_append_of_head h.not_digit, digits?]
  split
  · rfl
  · rfl

theorem digits?_of_stops (h : Stops rest) : digits? rest = none := digits?_append h []

theorem wholeDigits?_append (h : Stops rest) (cs : List Char) :
    wholeDigits? (cs ++ rest) = (wholeDigits? cs).map (before rest) := by
  cases cs with
  | nil =>
    cases rest with
    | nil => rfl
    | cons c rest =>
      have hc : c ≠ '0' := by
        rintro rfl
        exact absurd (h '0' rfl) (by decide)
      have hnone := digits?_of_stops h
      simp only [List.nil_append]
      rw [wholeDigits?]
      · rw [hnone]
        rfl
      · rintro _ ⟨⟩
        exact hc rfl
  | cons c cs =>
    by_cases hc : c = '0'
    · subst hc
      rfl
    · rw [List.cons_append, wholeDigits?, wholeDigits?]
      · exact digits?_append h (c :: cs)
      · rintro _ ⟨⟩
        exact hc rfl
      · rintro _ ⟨⟩
        exact hc rfl

theorem fraction?_append (h : Stops rest) (cs : List Char) :
    fraction? (cs ++ rest) = (fraction? cs).map (before rest) := by
  cases cs with
  | nil =>
    cases rest with
    | nil => rfl
    | cons c rest =>
      rw [List.nil_append, fraction?]
      · rfl
      · rintro _ ⟨⟩
        exact absurd (h '.' rfl) (by decide)
  | cons c cs =>
    by_cases hc : c = '.'
    · subst hc
      simp only [List.cons_append, fraction?, digits?_append h, Option.map_map]
      rfl
    · rw [List.cons_append, fraction?, fraction?]
      · rfl
      · rintro _ ⟨⟩
        exact hc rfl
      · rintro _ ⟨⟩
        exact hc rfl

theorem Stops.ne (h : Stops rest) {c : Char} {cs : List Char} (hrest : rest = c :: cs) {d : Char}
    (hd : isNumeric d = true) : c ≠ d := by
  rintro rfl
  rw [h c (by rw [hrest]; rfl)] at hd
  cases hd

theorem exponent?_append (h : Stops rest) (cs : List Char) :
    exponent? (cs ++ rest) = (exponent? cs).map (before rest) := by
  cases cs with
  | nil =>
    cases hrest : rest with
    | nil => rfl
    | cons c tail =>
      have hc : ¬ (c = 'e' ∨ c = 'E') := fun hc => by
        rcases hc with rfl | rfl
        · exact h.ne hrest (d := 'e') rfl rfl
        · exact h.ne hrest (d := 'E') rfl rfl
      simp only [List.nil_append, exponent?, if_neg hc]
      rfl
  | cons c cs =>
    by_cases hc : c = 'e' ∨ c = 'E'
    · simp only [List.cons_append, exponent?, if_pos hc]
      cases cs with
      | nil =>
        have hnone := digits?_of_stops h
        cases hrest : rest with
        | nil => rfl
        | cons d tail =>
          rw [hrest] at hnone
          simp only [List.nil_append]
          split
          · rename_i heq
            cases heq
            exact absurd rfl (h.ne hrest (d := '-') rfl)
          · rename_i heq
            cases heq
            exact absurd rfl (h.ne hrest (d := '+') rfl)
          · rw [hnone]
            rfl
      | cons d cs =>
        by_cases hminus : d = '-'
        · subst hminus
          simp only [List.cons_append, digits?_append h, Option.map_map]
          rfl
        · by_cases hplus : d = '+'
          · subst hplus
            simp only [List.cons_append, digits?_append h, Option.map_map]
            rfl
          · have hdigits := digits?_append h (d :: cs)
            simp only [List.cons_append] at hdigits ⊢
            split
            · rename_i heq
              cases heq
              exact absurd rfl hminus
            · rename_i heq
              cases heq
              exact absurd rfl hplus
            · split
              · rename_i heq
                cases heq
                exact absurd rfl hminus
              · rename_i heq
                cases heq
                exact absurd rfl hplus
              · rw [hdigits, Option.map_map, Option.map_map]
                rfl
    · simp only [List.cons_append, exponent?, if_neg hc]
      rfl

theorem unsigned?_append (h : Stops rest) (negative : Bool) (cs : List Char) :
    unsigned? negative (cs ++ rest) = (unsigned? negative cs).map (before rest) := by
  simp only [unsigned?, Option.bind_eq_bind, wholeDigits?_append h]
  cases wholeDigits? cs with
  | none => rfl
  | some whole =>
    simp only [Option.map_some, Option.bind_some, before, fraction?_append h]
    cases fraction? whole.2 with
    | none => rfl
    | some fraction =>
      simp only [Option.map_some, Option.bind_some, before, exponent?_append h]
      cases exponent? fraction.2 with
      | none => rfl
      | some exponent => rfl

/-- **What stands behind a number does not matter**, unless the number goes on with it. -/
theorem number?_append (h : Stops rest) (cs : List Char) :
    number? (cs ++ rest) = (number? cs).map (before rest) := by
  have hplain : ∀ cs : List Char, cs.head? ≠ some '-' → number? cs = unsigned? false cs := by
    intro cs hcs
    rw [number?]
    rintro tail rfl
    exact hcs rfl
  cases cs with
  | nil =>
    have hrest : rest.head? ≠ some '-' := fun hrest => absurd (h '-' hrest) (by decide)
    rw [List.nil_append, hplain rest hrest]
    exact unsigned?_append h false []
  | cons c cs =>
    by_cases hc : c = '-'
    · subst hc
      exact unsigned?_append h true cs
    · have hhead : ∀ tail : List Char, (c :: tail).head? ≠ some '-' := by
        rintro tail ⟨⟩
        exact hc rfl
      rw [hplain (c :: cs) (hhead cs), List.cons_append, hplain _ (hhead _)]
      exact unsigned?_append h false (c :: cs)

theorem digits?_of_isDigit {cs : List Char} (hne : cs ≠ []) (h : ∀ c ∈ cs, c.isDigit = true) :
    digits? cs = some (cs, []) := by
  have htake : (cs ++ []).takeWhile Char.isDigit = cs ++ [].takeWhile Char.isDigit :=
    List.takeWhile_append_of_pos h
  have hdrop : (cs ++ []).dropWhile Char.isDigit = [].dropWhile Char.isDigit :=
    List.dropWhile_append_of_pos h
  simp only [List.append_nil, List.takeWhile_nil, List.dropWhile_nil] at htake hdrop
  simp only [digits?, htake, hdrop, List.isEmpty_eq_false_iff.2 hne]
  rfl

theorem unsigned?_toString (negative : Bool) (n : Nat) :
    unsigned? negative (toString n).toList =
      some (number ⟨negative, (toString n).toList, none, none⟩, []) := by
  have hwhole : wholeDigits? (toString n).toList = some ((toString n).toList, []) := by
    by_cases hn : n = 0
    · subst hn
      rfl
    · have hhead := head_toString_ne_zero (Nat.pos_of_ne_zero hn)
      rw [wholeDigits?]
      · exact digits?_of_isDigit (toString_ne_nil n) (toString_isDigit n)
      · intro tail heq
        rw [heq] at hhead
        exact hhead rfl
  rw [unsigned?, hwhole]
  rfl

theorem number?_ofInt (n : Int) :
    number? (toString n).toList = some (number (.ofInt n), []) := by
  cases n with
  | ofNat n =>
    have hhead : ∀ tail, (toString n).toList ≠ '-' :: tail := by
      intro tail heq
      have hdigit := toString_isDigit n '-' (by rw [heq]; exact List.mem_cons_self)
      exact absurd hdigit (by decide)
    show number? (toString n).toList = _
    rw [number?]
    · exact unsigned?_toString false n
    · exact hhead
  | negSucc n =>
    have htext : (toString (Int.negSucc n)).toList = '-' :: (toString (n + 1)).toList := by
      show ("-" ++ toString (n + 1)).toList = _
      rw [String.toList_append]
      rfl
    have hnumeral : Numeral.ofInt (.negSucc n) = ⟨true, (toString (n + 1)).toList, none, none⟩ := by
      simp only [Numeral.ofInt, Int.negSucc_lt_zero, decide_true, Int.natAbs_negSucc]
    rw [htext, hnumeral]
    exact unsigned?_toString true (n + 1)

/-! ## What is left of a number -/

theorem digits?_suffix {cs ds left : List Char} (h : digits? cs = some (ds, left)) :
    left <:+ cs := by
  unfold digits? at h
  simp only at h
  split at h
  · cases h
  · cases h
    exact List.dropWhile_suffix _

theorem wholeDigits?_suffix {cs ds left : List Char} (h : wholeDigits? cs = some (ds, left)) :
    left <:+ cs := by
  unfold wholeDigits? at h
  split at h
  · cases h
    exact List.suffix_cons _ _
  · exact digits?_suffix h

theorem fraction?_suffix {cs left : List Char} {ds : Option (List Char)}
    (h : fraction? cs = some (ds, left)) : left <:+ cs := by
  unfold fraction? at h
  split at h
  · obtain ⟨⟨_, _⟩, hdigits, heq⟩ := Option.map_eq_some_iff.1 h
    cases heq
    exact (digits?_suffix hdigits).trans (List.suffix_cons _ _)
  · cases h
    exact List.suffix_refl _

theorem exponent?_suffix {cs left : List Char} {e : Option (Bool × List Char)}
    (h : exponent? cs = some (e, left)) : left <:+ cs := by
  unfold exponent? at h
  split at h
  · split at h
    · split at h
      · obtain ⟨⟨_, _⟩, hdigits, heq⟩ := Option.map_eq_some_iff.1 h
        cases heq
        exact ((digits?_suffix hdigits).trans (List.suffix_cons _ _)).trans (List.suffix_cons _ _)
      · obtain ⟨⟨_, _⟩, hdigits, heq⟩ := Option.map_eq_some_iff.1 h
        cases heq
        exact ((digits?_suffix hdigits).trans (List.suffix_cons _ _)).trans (List.suffix_cons _ _)
      · obtain ⟨⟨_, _⟩, hdigits, heq⟩ := Option.map_eq_some_iff.1 h
        cases heq
        exact (digits?_suffix hdigits).trans (List.suffix_cons _ _)
    · cases h
      exact List.suffix_refl _
  · cases h
    exact List.suffix_refl _

theorem unsigned?_suffix {negative : Bool} {cs left : List Char} {n : Node}
    (h : unsigned? negative cs = some (n, left)) : left <:+ cs := by
  simp only [unsigned?, Option.bind_eq_bind, Option.bind_eq_some_iff] at h
  obtain ⟨⟨_, _⟩, hwhole, ⟨_, _⟩, hfraction, ⟨_, _⟩, hexponent, heq⟩ := h
  cases heq
  exact ((exponent?_suffix hexponent).trans (fraction?_suffix hfraction)).trans
    (wholeDigits?_suffix hwhole)

theorem number?_suffix {cs left : List Char} {n : Node} (h : number? cs = some (n, left)) :
    left <:+ cs := by
  unfold number? at h
  split at h
  · exact (unsigned?_suffix h).trans (List.suffix_cons _ _)
  · exact unsigned?_suffix h

/-- All of a text can stand in a number. -/
def Numeric (s : String) : Prop := ∀ c ∈ s.toList, isNumeric c = true

theorem numeric_iff_all {s : String} : s.toList.all isNumeric = true ↔ Numeric s := List.all_eq_true

instance (s : String) : Decidable (Numeric s) := decidable_of_iff _ numeric_iff_all

theorem Numeric.append {s t : String} (hs : Numeric s) (ht : Numeric t) : Numeric (s ++ t) := by
  intro c hc
  rw [String.toList_append, List.mem_append] at hc
  exact hc.elim (hs c) (ht c)

theorem numeric_toString (n : Nat) : Numeric (toString n) := by
  intro c hc
  simp [isNumeric, toString_isDigit n c hc]

theorem numeric_toString_int (n : Int) : Numeric (toString n) := by
  cases n with
  | ofNat n => exact numeric_toString n
  | negSucc n =>
    show Numeric ("-" ++ toString (n + 1))
    exact .append (by decide) (numeric_toString (n + 1))

theorem numeric_decimalText (digits : Nat) (exponent : Int) :
    Numeric (Binary64.decimalText digits exponent) := by
  have hzeros : ∀ n, Numeric (Binary64.zeros n) := by
    intro n c hc
    rw [Binary64.zeros, String.toList_ofList] at hc
    rw [List.eq_of_mem_replicate hc]
    rfl
  have hpart : ∀ cs, (∀ c ∈ cs, c ∈ (toString digits).toList) → Numeric (String.ofList cs) := by
    intro cs hcs c hc
    rw [String.toList_ofList] at hc
    exact numeric_toString digits c (hcs c hc)
  have hall := hpart _ fun _ => id
  have hfront := fun n => hpart ((toString digits).toList.take n) fun _ => List.mem_of_mem_take
  have hback := fun n => hpart ((toString digits).toList.drop n) fun _ => List.mem_of_mem_drop
  unfold Binary64.decimalText
  simp only
  split
  · exact (hall.append (hzeros _)).append (by decide)
  · split
    · exact ((hfront _).append (by decide)).append (hback _)
    · split
      · exact (Numeric.append (by decide) (hzeros _)).append hall
      · split
        · exact (hall.append (by decide)).append (numeric_toString_int _)
        · exact ((((hfront _).append (by decide)).append (hback _)).append (by decide)).append
            (numeric_toString_int _)

/-- A number that need not be whole is written with characters that stand in numbers. -/
theorem numeric_text (x : Binary64) : Numeric x.text := by
  have hsign : Numeric (if x.negative then "-" else "") := by
    split
    · decide
    · decide
  unfold Binary64.text
  simp only
  split
  · exact hsign.append (by decide)
  · exact hsign.append (numeric_decimalText _ _)

theorem text_ne_nil (x : Binary64) : x.text.toList ≠ [] := by
  have hdecimal : ∀ digits exponent, (Binary64.decimalText digits exponent).toList ≠ [] := by
    intro digits exponent
    unfold Binary64.decimalText
    simp only
    repeat' split
    all_goals simp
  unfold Binary64.text
  simp only
  split
  · simp
  · rw [String.toList_append]
    exact List.append_ne_nil_of_right_ne_nil _ (hdecimal _ _)

/-! ## Strings -/

theorem hexDigit?_hexDigit : ∀ n < 16, hexDigit? (Json.hexDigit n) = some n := by decide

/-- A unit that is no half of a surrogate pair stands for a character of its own. -/
theorem assemble?_unit {c : Char} (hc : c.toNat < 0x20) (ps : List Piece) :
    assemble? (.unit c.toNat :: ps) = (assemble? ps).map (c :: ·) := by
  have hhigh : isHigh c.toNat = false := by
    simp only [isHigh, Bool.and_eq_false_iff, decide_eq_false_iff_not]
    omega
  have hlow : isLow c.toNat = false := by
    simp only [isLow, Bool.and_eq_false_iff, decide_eq_false_iff_not]
    omega
  cases ps with
  | nil => simp [assemble?, hhigh, hlow]
  | cons p ps =>
    cases p with
    | char d => simp [assemble?, hhigh, hlow]
    | unit n => simp [assemble?, hhigh, hlow]

theorem pieces?_letter {e c : Char} (he : escape? e = some c) (rest : List Char) :
    pieces? ('\\' :: e :: rest) = (pieces? rest).map fun r => (.char c :: r.1, r.2) := by
  rw [pieces?, he]
  · cases pieces? rest with
    | none => rfl
    | some r => rfl
  · -- `u` is no letter of its own
    rintro _ _ _ _ _ rfl
    cases he

theorem pieces?_code {n : Nat} (h : n < 0x20) (rest : List Char) :
    pieces? ('\\' :: 'u' :: '0' :: '0' :: Json.hexDigit (n / 16) :: Json.hexDigit (n % 16) ::
      rest) = (pieces? rest).map fun r => (.unit n :: r.1, r.2) := by
  have hhigh := hexDigit?_hexDigit (n / 16) (by omega)
  have hlow := hexDigit?_hexDigit (n % 16) (by omega)
  have hzero : hexDigit? '0' = some 0 := rfl
  have hsum : 0 * 4096 + 0 * 256 + n / 16 * 16 + n % 16 = n := by omega
  rw [pieces?]
  simp only [hhigh, hlow, hzero, Option.bind_eq_bind, Option.bind_some, hsum]
  cases pieces? rest with
  | none => rfl
  | some r => rfl

theorem pieces?_plain {c : Char} (hquote : c ≠ '"') (hslash : c ≠ '\\') (hc : ¬ c.toNat < 0x20)
    (rest : List Char) :
    pieces? (c :: rest) = (pieces? rest).map fun r => (.char c :: r.1, r.2) := by
  rw [pieces?, if_neg (not_or.2 ⟨hslash, hc⟩)]
  · cases pieces? rest with
    | none => rfl
    | some r => rfl
  · exact hquote
  · intro _ _ _ _ _ heq
    exact absurd heq hslash
  · intro _ _ heq
    exact absurd heq hslash

theorem pieces?_escaped (c : Char) :
    ∃ piece, (∀ rest, pieces? (Json.escaped c ++ rest) =
        (pieces? rest).map fun r => (piece :: r.1, r.2)) ∧
      ∀ ps, assemble? (piece :: ps) = (assemble? ps).map (c :: ·) := by
  have hchar : ∀ ps, assemble? (.char c :: ps) = (assemble? ps).map (c :: ·) := fun _ => rfl
  unfold Json.escaped
  split
  · subst c
    exact ⟨_, pieces?_letter rfl, hchar⟩
  · rename_i hquote
    split
    · subst c
      exact ⟨_, pieces?_letter rfl, hchar⟩
    · rename_i hslash
      split
      · subst c
        exact ⟨_, pieces?_letter rfl, hchar⟩
      · split
        · subst c
          exact ⟨_, pieces?_letter rfl, hchar⟩
        · split
          · subst c
            exact ⟨_, pieces?_letter rfl, hchar⟩
          · split
            · subst c
              exact ⟨_, pieces?_letter rfl, hchar⟩
            · split
              · subst c
                exact ⟨_, pieces?_letter rfl, hchar⟩
              · split
                · rename_i hc
                  exact ⟨_, pieces?_code hc, assemble?_unit hc⟩
                · rename_i hc
                  exact ⟨_, pieces?_plain hquote hslash hc, hchar⟩

/-- **A string is read as it was written.** -/
theorem string?_quotedChars (cs rest : List Char) :
    string? (Json.quotedChars cs ++ rest) = some (some (String.ofList cs), rest) := by
  have hpieces : ∃ ps, pieces? (Json.quotedChars cs ++ rest) = some (ps, rest) ∧
      assemble? ps = some cs := by
    induction cs with
    | nil => exact ⟨[], rfl, rfl⟩
    | cons c cs ih =>
      obtain ⟨ps, hread, hassemble⟩ := ih
      obtain ⟨piece, hpiece, hmeaning⟩ := pieces?_escaped c
      refine ⟨piece :: ps, ?_, ?_⟩
      · rw [Json.quotedChars, List.append_assoc, hpiece, hread]
        rfl
      · rw [hmeaning, hassemble]
        rfl
  obtain ⟨ps, hread, hassemble⟩ := hpieces
  rw [string?, hread]
  simp only [Option.bind_eq_bind, Option.bind_some, hassemble, Option.map_some]

/-! ## White space -/

theorem skipSpace_cons {c : Char} (h : isSpace c = false) (cs : List Char) :
    skipSpace (c :: cs) = c :: cs := by
  rw [skipSpace, List.dropWhile_cons_of_neg (by simp [h])]

theorem skipSpace_append {blank : List Char} (h : ∀ c ∈ blank, isSpace c = true) (cs : List Char) :
    skipSpace (blank ++ cs) = skipSpace cs :=
  List.dropWhile_append_of_pos h

@[simp] theorem skipSpace_skipSpace (cs : List Char) : skipSpace (skipSpace cs) = skipSpace cs := by
  induction cs with
  | nil => rfl
  | cons c cs ih =>
    by_cases hc : isSpace c = true
    · have hskip : skipSpace (c :: cs) = skipSpace cs := List.dropWhile_cons_of_pos hc
      rwa [hskip]
    · rw [skipSpace_cons (Bool.eq_false_iff.2 hc), skipSpace_cons (Bool.eq_false_iff.2 hc)]

theorem value?_skipSpace (fuel : Nat) (cs : List Char) :
    value? fuel (skipSpace cs) = value? fuel cs := by
  cases fuel with
  | zero => rfl
  | succ fuel => simp only [value?, skipSpace_skipSpace]

theorem items?_skipSpace (fuel : Nat) (cs : List Char) :
    items? fuel (skipSpace cs) = items? fuel cs := by
  cases fuel with
  | zero => rfl
  | succ fuel => simp only [items?, value?_skipSpace]

theorem members?_skipSpace (fuel : Nat) (cs : List Char) :
    members? fuel (skipSpace cs) = members? fuel cs := by
  cases fuel with
  | zero => rfl
  | succ fuel => simp only [members?, skipSpace_skipSpace]

theorem not_isNumeric_of_isSpace {c : Char} (h : isSpace c = true) : isNumeric c = false := by
  simp only [isSpace, Bool.or_eq_true, decide_eq_true_eq] at h
  rcases h with ((rfl | rfl) | rfl) | rfl
  · rfl
  · rfl
  · rfl
  · rfl

theorem not_isSpace_of_isNumeric {c : Char} (h : isNumeric c = true) : isSpace c = false := by
  cases hspace : isSpace c with
  | false => rfl
  | true =>
    rw [not_isNumeric_of_isSpace hspace] at h
    cases h

theorem stops_append {blank : List Char} (h : ∀ c ∈ blank, isSpace c = true) {cs : List Char}
    (hcs : Stops cs) : Stops (blank ++ cs) := by
  cases blank with
  | nil => exact hcs
  | cons c blank => exact stops_cons (not_isNumeric_of_isSpace (h c List.mem_cons_self))

end Node

end PoolKeeper
