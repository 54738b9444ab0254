import PoolKeeper.Proofs.JsonToken

/-!
# Written JSON is read again

* `Json.Layout.Blank`: a layout that puts nothing but white space between tokens;
* `Json.Exact`: no numbers but whole ones of the 64-bit range;
* `Node.Stuck`: a reader that ends within a number; `Node.value?_chars`: what may happen with the
  others;
* **`Node.value?_writeAt`**, `Node.items?_writeItems`, `Node.members?_writeMembers`: values, items
  and members;
* **`Node.read?_write`**, `Node.read?_write_of_exact`: documents.
-/

namespace PoolKeeper

/-! ## Values that are written exactly -/

namespace Json

/-- A layout that puts nothing but white space between tokens. -/
structure Layout.Blank (l : Layout) : Prop where
  lineBreak : ∀ depth, ∀ c ∈ l.lineBreak depth, Node.isSpace c = true
  afterColon : ∀ c ∈ l.afterColon, Node.isSpace c = true

theorem blank_compact : compact.Blank := ⟨by simp [compact], by simp [compact]⟩

theorem blank_indented : indented.Blank where
  lineBreak depth c hc := by
    rcases List.mem_cons.1 hc with rfl | hc
    · rfl
    · rw [List.eq_of_mem_replicate hc]
      rfl
  afterColon c hc := by
    rw [List.mem_singleton.1 hc]
    rfl

mutual

/-- All numbers are whole ones of the signed or unsigned 64-bit range. -/
def Exact : Json → Prop
  | number (.whole n) => -0x8000_0000_0000_0000 ≤ n ∧ n < 0x1_0000_0000_0000_0000
  | number (.real _) => False
  | array items => ItemsExact items
  | object members => MembersExact members
  | _ => True

/-- All numbers within the items are whole ones of the 64-bit range. -/
def ItemsExact : List Json → Prop
  | [] => True
  | item :: rest => Exact item ∧ ItemsExact rest

/-- All numbers within the members are whole ones of the 64-bit range. -/
def MembersExact : List (String × Json) → Prop
  | [] => True
  | (_, value) :: rest => Exact value ∧ MembersExact rest

end

theorem chars_isNumeric (n : Number) : ∀ c ∈ n.chars, Node.isNumeric c = true := by
  cases n with
  | whole n => exact Node.numeric_toString_int n
  | real x => exact Node.numeric_text x

theorem chars_ne_nil (n : Number) : n.chars ≠ [] := by
  cases n with
  | whole n =>
    cases n with
    | ofNat n => exact toString_ne_nil n
    | negSucc n =>
      show ("-" ++ toString (n + 1)).toList ≠ []
      rw [String.toList_append]
      exact List.append_ne_nil_of_right_ne_nil _ (toString_ne_nil (n + 1))
  | real x => exact Node.text_ne_nil x

theorem writeAt_head (l : Layout) (depth : Nat) (x : Json) :
    ∃ c tail, writeAt l depth x = c :: tail ∧ Node.isSpace c = false ∧ c ≠ ']' := by
  cases x with
  | null => exact ⟨_, _, by rw [writeAt], rfl, by decide⟩
  | bool b =>
    cases b with
    | true => exact ⟨_, _, by rw [writeAt], rfl, by decide⟩
    | false => exact ⟨_, _, by rw [writeAt], rfl, by decide⟩
  | number n =>
    cases hchars : n.chars with
    | nil => exact absurd hchars (chars_ne_nil n)
    | cons c tail =>
      have hc := chars_isNumeric n c (by rw [hchars]; exact List.mem_cons_self)
      refine ⟨c, tail, by rw [writeAt, hchars], Node.not_isSpace_of_isNumeric hc, ?_⟩
      rintro rfl
      cases hc
  | string s => exact ⟨_, _, by rw [writeAt, quoted], rfl, by decide⟩
  | array items => exact ⟨_, _, by rw [writeAt], rfl, by decide⟩
  | object members => exact ⟨_, _, by rw [writeAt], rfl, by decide⟩

end Json

/-! ## Values -/

namespace Node

variable {rest : List Char} {l : Json.Layout}

/-- A reader gets stuck within a number. -/
def Stuck {α : Type} (result : Option (α × List Char)) : Prop :=
  ∀ x left, result = some (x, left) → ∃ c tail, left = c :: tail ∧ isNumeric c = true

theorem value?_number {c : Char} (hc : isNumeric c = true) (fuel : Nat) (cs : List Char) :
    value? (fuel + 1) (c :: cs) = number? (c :: cs) := by
  rw [value?, skipSpace_cons (not_isSpace_of_isNumeric hc)]
  split
  · rename_i heq
    cases heq
    cases hc
  · rename_i heq
    cases heq
    cases hc
  · rename_i heq
    cases heq
    cases hc
  · rename_i heq
    cases heq
    cases hc
  · rename_i heq
    cases heq
    cases hc
  · rename_i heq
    cases heq
    cases hc
  · rfl

/-- A number is read, or what is read of it ends within it. -/
theorem value?_chars (n : Json.Number) (fuel : Nat) (h : Stops rest) :
    value? (fuel + 1) (n.chars ++ rest) = some (ofJson (.number n), rest) ∨
      ¬ (Json.number n).Exact ∧ Stuck (value? (fuel + 1) (n.chars ++ rest)) := by
  have hdispatch : value? (fuel + 1) (n.chars ++ rest) = (number? n.chars).map (before rest) := by
    have hnumeric := Json.chars_isNumeric n
    rw [← number?_append h]
    cases hchars : n.chars with
    | nil => exact absurd hchars (Json.chars_ne_nil n)
    | cons c tail =>
      rw [hchars] at hnumeric
      exact value?_number (hnumeric c List.mem_cons_self) fuel _
  rw [hdispatch]
  cases n with
  | whole n =>
    left
    show (number? (toString n).toList).map (before rest) = _
    rw [number?_ofInt]
    rfl
  | real x =>
    cases hread : number? (Json.Number.real x).chars with
    | none =>
      right
      refine ⟨fun h => h, ?_⟩
      rintro _ _ ⟨⟩
    | some r =>
      obtain ⟨n, left⟩ := r
      cases left with
      | nil =>
        left
        have hnode : ofJson (.number (.real x)) = n := by
          show ((number? x.text.toList).map Prod.fst).getD null = n
          have htext : number? x.text.toList = some (n, []) := hread
          rw [htext]
          rfl
        rw [hnode]
        rfl
      | cons c tail =>
        right
        refine ⟨fun h => h, ?_⟩
        rintro _ _ ⟨⟩
        have hc := (number?_suffix hread).subset List.mem_cons_self
        exact ⟨c, tail ++ rest, rfl, Json.chars_isNumeric _ c hc⟩

/-! ### Items and members -/

theorem value?_append {blank : List Char} (h : ∀ c ∈ blank, isSpace c = true) (fuel : Nat)
    (cs : List Char) : value? fuel (blank ++ cs) = value? fuel cs := by
  rw [← value?_skipSpace, skipSpace_append h, value?_skipSpace]

section

variable {fuel : Nat} {cs left tail : List Char} {x : Node}

theorem items?_last (hread : value? fuel cs = some (x, left))
    (hleft : skipSpace left = ']' :: tail) :
    items? (fuel + 1) cs = some ([x], tail) := by
  rw [items?, hread]
  simp only [Option.bind_eq_bind, Option.bind_some, hleft]

theorem items?_next (hread : value? fuel cs = some (x, left))
    (hleft : skipSpace left = ',' :: tail) :
    items? (fuel + 1) cs = (items? fuel tail).map fun q => (x :: q.1, q.2) := by
  rw [items?, hread]
  simp only [Option.bind_eq_bind, Option.bind_some, hleft]
  cases items? fuel tail with
  | none => rfl
  | some q => rfl

theorem items?_of_stuck (h : Stuck (value? fuel cs)) : items? (fuel + 1) cs = none := by
  rw [items?]
  cases hread : value? fuel cs with
  | none => rfl
  | some r =>
    obtain ⟨c, tail, hleft, hc⟩ := h r.1 r.2 hread
    simp only [Option.bind_eq_bind, Option.bind_some, hleft,
      skipSpace_cons (not_isSpace_of_isNumeric hc)]
    split
    · rename_i heq
      cases heq
      cases hc
    · rename_i heq
      cases heq
      cases hc
    · rfl

/-- The members of an object from one whose value has just been read. -/
def membersFrom? (fuel : Nat) (name : String) (r : Node × List Char) :
    Option (List (Option String × Node) × List Char) :=
  match skipSpace r.2 with
  | ',' :: rest => (members? fuel rest).bind fun q => some ((some name, r.1) :: q.1, q.2)
  | '}' :: rest => some ([(some name, r.1)], rest)
  | _ => none

theorem members?_named {blank : List Char} (h : ∀ c ∈ blank, isSpace c = true) (fuel : Nat)
    (name : String) (cs : List Char) :
    members? (fuel + 1) (blank ++ (Json.quoted name ++ ':' :: cs)) =
      (value? fuel cs).bind (membersFrom? fuel name) := by
  have hname : string? (Json.quotedChars name.toList ++ ':' :: cs) =
      some (some name, ':' :: cs) := by
    rw [string?_quotedChars, String.ofList_toList]
  have hquote : skipSpace (blank ++ (Json.quoted name ++ ':' :: cs)) =
      '"' :: (Json.quotedChars name.toList ++ ':' :: cs) := by
    rw [skipSpace_append h]
    exact skipSpace_cons rfl _
  have hcolon : skipSpace (':' :: cs) = ':' :: cs := skipSpace_cons rfl _
  rw [members?]
  simp only [hquote, Option.bind_eq_bind, hname, Option.bind_some, hcolon]
  rfl

variable {blank : List Char} (h : ∀ c ∈ blank, isSpace c = true) {name : String}
include h

theorem members?_last (hread : value? fuel cs = some (x, left))
    (hleft : skipSpace left = '}' :: tail) :
    members? (fuel + 1) (blank ++ (Json.quoted name ++ ':' :: cs)) =
      some ([(some name, x)], tail) := by
  rw [members?_named h, hread]
  simp only [Option.bind_some, membersFrom?, hleft]

theorem members?_next (hread : value? fuel cs = some (x, left))
    (hleft : skipSpace left = ',' :: tail) :
    members? (fuel + 1) (blank ++ (Json.quoted name ++ ':' :: cs)) =
      (members? fuel tail).map fun q => ((some name, x) :: q.1, q.2) := by
  rw [members?_named h, hread]
  simp only [Option.bind_some, membersFrom?, hleft]
  cases members? fuel tail with
  | none => rfl
  | some q => rfl

theorem members?_of_stuck (hstuck : Stuck (value? fuel cs)) :
    members? (fuel + 1) (blank ++ (Json.quoted name ++ ':' :: cs)) = none := by
  rw [members?_named h]
  cases hread : value? fuel cs with
  | none => rfl
  | some r =>
    obtain ⟨c, tail, hleft, hc⟩ := hstuck r.1 r.2 hread
    simp only [Option.bind_some, membersFrom?, hleft, skipSpace_cons (not_isSpace_of_isNumeric hc)]
    split
    · rename_i heq
      cases heq
      cases hc
    · rename_i heq
      cases heq
      cases hc
    · rfl

end

theorem value?_array {fuel : Nat} {cs : List Char} (h : ∀ tail, skipSpace cs ≠ ']' :: tail) :
    value? (fuel + 1) ('[' :: cs) = (items? fuel cs).map fun r => (array r.1, r.2) := by
  rw [value?, skipSpace_cons rfl]
  simp only [items?_skipSpace]

theorem value?_object {fuel : Nat} {cs : List Char} (h : ∀ tail, skipSpace cs ≠ '}' :: tail) :
    value? (fuel + 1) ('{' :: cs) = (members? fuel cs).map fun r => (object r.1, r.2) := by
  rw [value?, skipSpace_cons rfl]
  simp only [members?_skipSpace]

theorem value?_quoted (s : String) (fuel : Nat) (rest : List Char) :
    value? (fuel + 1) (Json.quoted s ++ rest) = some (string (some s), rest) := by
  rw [Json.quoted, List.cons_append, value?, skipSpace_cons rfl]
  simp only [string?_quotedChars, Option.map_some, String.ofList_toList]

theorem items?_append {blank : List Char} (h : ∀ c ∈ blank, isSpace c = true) (fuel : Nat)
    (cs : List Char) : items? fuel (blank ++ cs) = items? fuel cs := by
  rw [← items?_skipSpace, skipSpace_append h, items?_skipSpace]

mutual

/-- **A written value is read as its tree**, up to numbers that are not whole. -/
theorem value?_writeAt (hl : l.Blank) (depth : Nat) :
    ∀ (x : Json) (fuel : Nat) (rest : List Char), (x.writeAt l depth).length ≤ fuel → Stops rest →
      value? fuel (x.writeAt l depth ++ rest) = some (ofJson x, rest) ∨
        ¬ x.Exact ∧ Stuck (value? fuel (x.writeAt l depth ++ rest))
  | .null, _ + 1, _, _, _ => .inl rfl
  | .bool true, _ + 1, _, _, _ => .inl rfl
  | .bool false, _ + 1, _, _, _ => .inl rfl
  | .number n, fuel + 1, _, _, hrest => value?_chars n fuel hrest
  | .string s, fuel + 1, rest, _, _ => .inl (value?_quoted s fuel rest)
  | .array [], _ + 1, _, _, _ => .inl rfl
  | .array (x :: xs), fuel + 1, rest, hfuel, _ => by
    have hfit : (Json.writeItems l depth (x :: xs)).length ≤ fuel := by
      rw [Json.writeAt, List.length_cons] at hfuel
      omega
    -- The reader looks for the end of the array first, and no item begins like that.
    have hopen : ∀ tail, skipSpace (Json.writeItems l depth (x :: xs) ++ rest) ≠ ']' :: tail := by
      intro tail
      obtain ⟨c, text, heq, hspace, hc⟩ := x.writeAt_head l (depth + 1)
      simp only [Json.writeItems, List.append_assoc, skipSpace_append (hl.lineBreak _), heq,
        List.cons_append, skipSpace_cons hspace]
      rintro ⟨⟩
      exact hc rfl
    rw [Json.writeAt, List.cons_append, value?_array hopen]
    rcases items?_writeItems hl depth (x :: xs) fuel rest (by simp) hfit with
      hread | ⟨hexact, hnone⟩
    · left
      rw [hread]
      rfl
    · right
      rw [hnone]
      refine ⟨hexact, ?_⟩
      rintro _ _ ⟨⟩
  | .object [], _ + 1, _, _, _ => .inl rfl
  | .object ((name, x) :: xs), fuel + 1, rest, hfuel, _ => by
    have hfit : (Json.writeMembers l depth ((name, x) :: xs)).length ≤ fuel := by
      rw [Json.writeAt, List.length_cons] at hfuel
      omega
    have hopen : ∀ tail, skipSpace (Json.writeMembers l depth ((name, x) :: xs) ++ rest) ≠
        '}' :: tail := by
      intro tail
      simp only [Json.writeMembers, List.append_assoc, skipSpace_append (hl.lineBreak _),
        Json.quoted, List.cons_append, skipSpace_cons (c := '"') rfl]
      rintro ⟨⟩
    rw [Json.writeAt, List.cons_append, value?_object hopen]
    rcases members?_writeMembers hl depth ((name, x) :: xs) fuel rest (by simp) hfit with
      hread | ⟨hexact, hnone⟩
    · left
      rw [hread]
      rfl
    · right
      rw [hnone]
      refine ⟨hexact, ?_⟩
      rintro _ _ ⟨⟩
  | x, 0, _, hfuel, _ => by
    obtain ⟨c, tail, heq, _⟩ := x.writeAt_head l depth
    rw [heq] at hfuel
    cases hfuel

/-- Written items are read as their trees, up to numbers that are not whole. -/
theorem items?_writeItems (hl : l.Blank) (depth : Nat) :
    ∀ (xs : List Json) (fuel : Nat) (rest : List Char), xs ≠ [] →
      (Json.writeItems l depth xs).length ≤ fuel →
      items? fuel (Json.writeItems l depth xs ++ rest) = some (ofItems xs, rest) ∨
        ¬ Json.ItemsExact xs ∧ items? fuel (Json.writeItems l depth xs ++ rest) = none
  | [x], fuel, rest, _, hfuel => by
    have htext : Json.writeItems l depth [x] ++ rest = l.lineBreak (depth + 1) ++
        (x.writeAt l (depth + 1) ++ (l.lineBreak depth ++ ']' :: rest)) := by
      simp [Json.writeItems]
    have hstops : Stops (l.lineBreak depth ++ ']' :: rest) :=
      stops_append (hl.lineBreak depth) (stops_cons rfl)
    have hend : skipSpace (l.lineBreak depth ++ ']' :: rest) = ']' :: rest := by
      rw [skipSpace_append (hl.lineBreak depth), skipSpace_cons rfl]
    simp only [Json.writeItems, List.length_append, List.length_singleton] at hfuel
    obtain ⟨fuel, rfl⟩ : ∃ n, fuel = n + 1 := ⟨fuel - 1, by omega⟩
    rw [htext, items?_append (hl.lineBreak _)]
    rcases value?_writeAt hl (depth + 1) x fuel _ (by omega) hstops with hread | ⟨hexact, hstuck⟩
    · exact .inl (items?_last hread hend)
    · exact .inr ⟨fun h => hexact h.1, items?_of_stuck hstuck⟩
  | x :: y :: ys, fuel, rest, _, hfuel => by
    have htext : Json.writeItems l depth (x :: y :: ys) ++ rest = l.lineBreak (depth + 1) ++
        (x.writeAt l (depth + 1) ++ (',' :: (Json.writeItems l depth (y :: ys) ++ rest))) := by
      simp [Json.writeItems]
    have hstops : Stops (',' :: (Json.writeItems l depth (y :: ys) ++ rest)) := stops_cons rfl
    rw [Json.writeItems, List.length_append, List.length_append, List.length_append] at hfuel
    simp only [List.isEmpty_cons, Bool.false_eq_true, if_false, List.length_singleton] at hfuel
    obtain ⟨fuel, rfl⟩ : ∃ n, fuel = n + 1 := ⟨fuel - 1, by omega⟩
    rw [htext, items?_append (hl.lineBreak _)]
    rcases value?_writeAt hl (depth + 1) x fuel _ (by omega) hstops with hread | ⟨hexact, hstuck⟩
    · rw [items?_next hread (skipSpace_cons rfl _)]
      rcases items?_writeItems hl depth (y :: ys) fuel rest (by simp) (by omega) with
        hrest | ⟨hexact, hnone⟩
      · left
        rw [hrest]
        rfl
      · right
        rw [hnone]
        exact ⟨fun h => hexact h.2, rfl⟩
    · exact .inr ⟨fun h => hexact h.1, items?_of_stuck hstuck⟩

theorem members?_writeMembers (hl : l.Blank) (depth : Nat) :
    ∀ (xs : List (String × Json)) (fuel : Nat) (rest : List Char), xs ≠ [] →
      (Json.writeMembers l depth xs).length ≤ fuel →
      members? fuel (Json.writeMembers l depth xs ++ rest) = some (ofMembers xs, rest) ∨
        ¬ Json.MembersExact xs ∧ members? fuel (Json.writeMembers l depth xs ++ rest) = none
  | [(name, x)], fuel, rest, _, hfuel => by
    have htext : Json.writeMembers l depth [(name, x)] ++ rest = l.lineBreak (depth + 1) ++
        (Json.quoted name ++ ':' :: (l.afterColon ++
          (x.writeAt l (depth + 1) ++ (l.lineBreak depth ++ '}' :: rest)))) := by
      simp [Json.writeMembers]
    have hstops : Stops (l.lineBreak depth ++ '}' :: rest) :=
      stops_append (hl.lineBreak depth) (stops_cons rfl)
    have hend : skipSpace (l.lineBreak depth ++ '}' :: rest) = '}' :: rest := by
      rw [skipSpace_append (hl.lineBreak depth), skipSpace_cons rfl]
    simp only [Json.writeMembers, List.length_append, List.length_singleton] at hfuel
    obtain ⟨fuel, rfl⟩ : ∃ n, fuel = n + 1 := ⟨fuel - 1, by omega⟩
    rw [htext]
    rcases value?_writeAt hl (depth + 1) x fuel _ (by omega) hstops with hread | ⟨hexact, hstuck⟩
    · rw [← value?_append hl.afterColon] at hread
      exact .inl (members?_last (hl.lineBreak _) hread hend)
    · rw [← value?_append hl.afterColon] at hstuck
      exact .inr ⟨fun h => hexact h.1, members?_of_stuck (hl.lineBreak _) hstuck⟩
  | (name, x) :: (key, y) :: ys, fuel, rest, _, hfuel => by
    have htext : Json.writeMembers l depth ((name, x) :: (key, y) :: ys) ++ rest =
        l.lineBreak (depth + 1) ++ (Json.quoted name ++ ':' :: (l.afterColon ++
          (x.writeAt l (depth + 1) ++
            (',' :: (Json.writeMembers l depth ((key, y) :: ys) ++ rest))))) := by
      simp [Json.writeMembers]
    have hstops : Stops (',' :: (Json.writeMembers l depth ((key, y) :: ys) ++ rest)) :=
      stops_cons rfl
    rw [Json.writeMembers] at hfuel
    simp only [List.length_append, List.isEmpty_cons, Bool.false_eq_true, if_false,
      List.length_singleton] at hfuel
    obtain ⟨fuel, rfl⟩ : ∃ n, fuel = n + 1 := ⟨fuel - 1, by omega⟩
    rw [htext]
    rcases value?_writeAt hl (depth + 1) x fuel _ (by omega) hstops with hread | ⟨hexact, hstuck⟩
    · rw [← value?_append hl.afterColon] at hread
      rw [members?_next (hl.lineBreak _) hread (skipSpace_cons rfl _)]
      rcases members?_writeMembers hl depth ((key, y) :: ys) fuel rest (by simp) (by omega) with
        hrest | ⟨hexact, hnone⟩
      · left
        rw [hrest]
        rfl
      · right
        rw [hnone]
        exact ⟨fun h => hexact h.2, rfl⟩
    · rw [← value?_append hl.afterColon] at hstuck
      exact .inr ⟨fun h => hexact h.1, members?_of_stuck (hl.lineBreak _) hstuck⟩

end

/-- **A written document is read as its tree**, unless it holds numbers that are not whole and is
not read at all. -/
theorem read?_write (hl : l.Blank) (x : Json) :
    read? (x.write l) = some (ofJson x) ∨ ¬ x.Exact ∧ read? (x.write l) = none := by
  have hfuel : (x.writeAt l 0).length ≤ 2 * (x.writeAt l 0).length + 2 := by omega
  have hread := value?_writeAt hl 0 x _ [] hfuel stops_nil
  rw [List.append_nil] at hread
  rw [read?, readChars?, Json.write, String.toList_ofList]
  rcases hread with hread | ⟨hexact, hstuck⟩
  · left
    rw [hread]
    rfl
  · right
    refine ⟨hexact, ?_⟩
    -- A number that is read in part leaves its next digit, and the document cannot end there.
    cases hread : value? (2 * (x.writeAt l 0).length + 2) (x.writeAt l 0) with
    | none => rfl
    | some r =>
      obtain ⟨c, tail, hleft, hc⟩ := hstuck r.1 r.2 hread
      simp only [Option.bind_eq_bind, Option.bind_some, hleft,
        skipSpace_cons (not_isSpace_of_isNumeric hc)]
      rfl

theorem read?_write_of_exact (hl : l.Blank) {x : Json} (h : x.Exact) :
    read? (x.write l) = some (ofJson x) :=
  (read?_write hl x).resolve_right fun hnone => hnone.1 h

end Node

end PoolKeeper
