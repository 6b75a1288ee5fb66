import Mathlib.Data.List.DropRight
import NameCatalog.Proofs.Json.Reading

/-!
# Texts that spell a JSON value

A text spells a value when it is ASCII and the value is what is read, whatever follows the text.
Written texts do, and written arrays and objects do when their parts do.
-/

namespace NameCatalog.Json

/-! ## ASCII -/

def IsAscii (cs : List CodePoint) : Prop := ∀ c ∈ cs, c.toNat < 128

theorem isAscii_append {cs ds : List CodePoint} : IsAscii (cs ++ ds) ↔ IsAscii cs ∧ IsAscii ds :=
  List.forall_mem_append

theorem isAscii_cons {c : CodePoint} {cs : List CodePoint} :
    IsAscii (c :: cs) ↔ c.toNat < 128 ∧ IsAscii cs :=
  List.forall_mem_cons

instance (cs : List CodePoint) : Decidable (IsAscii cs) :=
  List.decidableBAll (fun c : CodePoint => c.toNat < 128) cs

theorem isAscii_nil : IsAscii [] := List.forall_mem_nil _

theorem isAscii_hexDigits (width n : Nat) : IsAscii (Text.hexDigits width n) := by
  induction width generalizing n with
  | zero => exact isAscii_nil
  | succ width ih =>
      have hdigit := (Text.hexValue?_digitChar (n % 16) (Nat.mod_lt n (by decide))).2
      exact isAscii_append.mpr ⟨ih (n / 16), isAscii_cons.mpr ⟨hdigit, isAscii_nil⟩⟩

theorem isAscii_unitEscape (n : Nat) : IsAscii (unitEscape n) :=
  isAscii_cons.mpr ⟨by decide, isAscii_cons.mpr ⟨by decide, isAscii_hexDigits 4 n⟩⟩

theorem toNat_lt_of_simpleEscape {e c : CodePoint} (h : simpleEscapes.lookup e = some c) :
    e.toNat < 128 := by
  have hall : ∀ p ∈ simpleEscapes, p.1.toNat < 128 := by
    decide
  obtain ⟨before, after, hescapes, -⟩ := List.lookup_eq_some_iff.mp h
  exact hall (e, c) (by simp [hescapes])

theorem isAscii_escapeChar (c : CodePoint) : IsAscii (escapeChar c) := by
  have hc := escaped_escapeChar c
  generalize escapeChar c = word at hc
  cases hc with
  | raw _ _ _ hascii => exact isAscii_cons.mpr ⟨Nat.lt_trans hascii (by decide), isAscii_nil⟩
  | simple hescape _ => exact isAscii_cons.mpr ⟨by decide, isAscii_cons.mpr
      ⟨toNat_lt_of_simpleEscape hescape, isAscii_nil⟩⟩
  | unit _ => exact isAscii_unitEscape _
  | pair _ => exact isAscii_append.mpr ⟨isAscii_unitEscape _, isAscii_unitEscape _⟩

theorem isAscii_quotedChars (cs : List CodePoint) : IsAscii (quotedChars cs) := by
  refine isAscii_append.mpr ⟨isAscii_cons.mpr ⟨by decide, ?_⟩, by decide⟩
  intro c hc
  obtain ⟨d, -, hd⟩ := List.mem_flatMap.mp hc
  exact isAscii_escapeChar d c hd

theorem isAscii_newLine (depth : Nat) : IsAscii (newLine depth) := by
  refine isAscii_cons.mpr ⟨by decide, ?_⟩
  intro c hc
  rw [List.eq_of_mem_replicate hc]
  decide

/-! ## Blanks -/

theorem skipBlanks_append {gap : List CodePoint} (h : ∀ c ∈ gap, isBlank c = true)
    (cs : List CodePoint) :
    skipBlanks (gap ++ cs) = skipBlanks cs := by
  rw [skipBlanks, List.dropWhile_append_of_pos h, skipBlanks]

theorem isBlank_newLine (depth : Nat) : ∀ c ∈ newLine depth, isBlank c = true := by
  intro c hc
  rcases List.mem_cons.mp hc with rfl | hc
  · rfl
  · rw [List.eq_of_mem_replicate hc]
    rfl

theorem skipBlanks_cons {c : CodePoint} (h : isBlank c = false) (cs : List CodePoint) :
    skipBlanks (c :: cs) = c :: cs :=
  List.dropWhile_cons_of_neg (by simp [h])

/-! ## Values -/

/-- The first characters of texts, arrays and objects. -/
def openers : List CodePoint := [.char '"', .char '[', .char '\x7b']

theorem isBlank_of_mem_openers {c : CodePoint} (h : c ∈ openers) : isBlank c = false := by
  have hall : openers.all (fun c => !isBlank c) = true := by
    decide
  simpa using List.all_eq_true.mp hall c h

structure Spells (cs : List CodePoint) (v : Json) : Prop where
  opens : ∃ c ∈ openers, ∃ rest, cs = c :: rest
  ascii : IsAscii cs
  reads : ∀ {fuel : Nat}, cs.length < fuel → ∀ rest, readValue fuel (cs ++ rest) = some (v, rest)

variable {cs : List CodePoint} {v : Json}

theorem Spells.skipBlanks_append (h : Spells cs v) (depth : Nat) (rest : List CodePoint) :
    skipBlanks (newLine depth ++ cs ++ rest) = cs ++ rest := by
  obtain ⟨c, hc, tail, rfl⟩ := h.opens
  rw [List.append_assoc, Json.skipBlanks_append (isBlank_newLine depth), List.cons_append,
    skipBlanks_cons (isBlank_of_mem_openers hc)]

theorem spells_quoted (s : Text) :
    Spells (quoted s) (text (Text.withPairsJoined s)) where
  opens := ⟨'"', by decide, _, rfl⟩
  ascii := isAscii_quotedChars s.toList
  reads := by
    intro fuel hfuel rest
    obtain ⟨fuel, rfl⟩ := Nat.exists_eq_succ_of_ne_zero (Nat.ne_zero_of_lt hfuel)
    have hread := ReadsText.flatMap_escapeChar s.toList rest none nofun
    have hquoted : quoted s ++ rest =
        .char '"' :: (s.toList.flatMap escapeChar ++ .char '"' :: rest) := by
      simp [quoted, quotedChars]
    rw [hquoted, readValue]
    exact congrArg (Option.map _) hread

/-! ## Arrays -/

theorem skipBlanks_close (outer : Nat) {c : CodePoint} (h : isBlank c = false)
    (rest : List CodePoint) :
    skipBlanks (newLine outer ++ c :: rest) = c :: rest := by
  rw [Json.skipBlanks_append (isBlank_newLine outer), skipBlanks_cons h]

/-- An item is read up to what stands behind it. -/
theorem Spells.readItems_eq (h : Spells cs v) {fuel : Nat} (hfuel : cs.length < fuel)
    (depth : Nat) (rest : List CodePoint) :
    readItems (fuel + 1) (newLine depth ++ cs ++ rest) =
      match skipBlanks rest with
      | .char ',' :: rest => do
        let (items, rest) ← readItems fuel rest
        return (v :: items, rest)
      | .char ']' :: rest => some ([v], rest)
      | _ => none := by
  rw [readItems, h.skipBlanks_append, h.reads hfuel]
  rfl

theorem indentedItems_cons {items : List Json} (h : items ≠ []) (depth : Nat) (v : Json) :
    indentedItems depth (v :: items) =
      newLine depth ++ indentedChars depth v ++ .char ',' :: indentedItems depth items := by
  cases items with
  | nil => exact absurd rfl h
  | cons w items => simp [indentedItems]

theorem isAscii_indentedItems {depth : Nat} {items read : List Json}
    (h : List.Forall₂ (fun v w => Spells (indentedChars depth v) w) items read) :
    IsAscii (indentedItems depth items) := by
  induction h with
  | nil => exact isAscii_nil
  | @cons v w items read hv hrest ih =>
      have hfirst := isAscii_append.mpr ⟨isAscii_newLine depth, hv.ascii⟩
      cases hrest with
      | nil => exact hfirst
      | cons =>
          rw [indentedItems_cons (List.cons_ne_nil _ _)]
          exact isAscii_append.mpr ⟨hfirst, isAscii_cons.mpr ⟨by decide, ih⟩⟩

theorem readItems_indentedItems {depth : Nat} {items read : List Json}
    (h : List.Forall₂ (fun v w => Spells (indentedChars depth v) w) items read)
    (hne : items ≠ []) {fuel : Nat} (hfuel : (indentedItems depth items).length < fuel)
    (outer : Nat) (rest : List CodePoint) :
    readItems fuel (indentedItems depth items ++ (newLine outer ++ .char ']' :: rest)) =
      some (read, rest) := by
  induction h generalizing fuel with
  | nil => exact absurd rfl hne
  | @cons v w items read hv hrest ih =>
      obtain ⟨fuel, rfl⟩ := Nat.exists_eq_succ_of_ne_zero (Nat.ne_zero_of_lt hfuel)
      by_cases hlast : items = []
      · subst hlast
        cases hrest
        simp only [indentedItems, newLine, List.length_append, List.length_cons] at hfuel
        rw [indentedItems, hv.readItems_eq (by omega), skipBlanks_close outer (by decide)]
        rfl
      · rw [indentedItems_cons hlast] at hfuel ⊢
        simp only [newLine, List.length_append, List.length_cons] at hfuel
        have hshorter : (indentedItems depth items).length < fuel := by
          omega
        rw [List.append_assoc, List.cons_append, hv.readItems_eq (by omega),
          skipBlanks_cons (by decide)]
        simp only [ih hlast hshorter]
        rfl

theorem skipBlanks_idem (cs : List CodePoint) : skipBlanks (skipBlanks cs) = skipBlanks cs :=
  List.dropWhile_idempotent isBlank cs

theorem readItems_skipBlanks (fuel : Nat) (cs : List CodePoint) :
    readItems fuel (skipBlanks cs) = readItems fuel cs := by
  cases fuel with
  | zero => simp only [readItems]
  | succ fuel => simp only [readItems, skipBlanks_idem]

theorem Spells.exists_opener (h : Spells cs v) (depth : Nat) (rest : List CodePoint) :
    ∃ c ∈ openers, ∃ tail, skipBlanks (newLine depth ++ cs ++ rest) = c :: tail := by
  obtain ⟨c, hc, tail, rfl⟩ := h.opens
  exact ⟨c, hc, tail ++ rest, h.skipBlanks_append depth rest⟩

/-- Behind the bracket there is no closing bracket in sight. -/
theorem exists_opener_indentedItems {depth : Nat} {items read : List Json}
    (h : List.Forall₂ (fun v w => Spells (indentedChars depth v) w) items read)
    (hne : items ≠ []) (rest : List CodePoint) :
    ∃ c ∈ openers, ∃ tail, skipBlanks (indentedItems depth items ++ rest) = c :: tail := by
  cases h with
  | nil => exact absurd rfl hne
  | @cons v w items read hv hrest =>
      by_cases hlast : items = []
      · subst hlast
        exact hv.exists_opener depth rest
      · rw [indentedItems_cons hlast, List.append_assoc]
        exact hv.exists_opener depth _

theorem indentedChars_array {items : List Json} (h : items ≠ []) (depth : Nat) :
    indentedChars depth (array items) =
      .char '[' :: (indentedItems (depth + 1) items ++ newLine depth ++ [.char ']']) := by
  cases items with
  | nil => exact absurd rfl h
  | cons v items => simp [indentedChars]

theorem readValue_array {fuel : Nat} {cs rest : List CodePoint} {vs : List Json}
    (hopens : ∃ c ∈ openers, ∃ tail, skipBlanks cs = c :: tail)
    (h : readItems fuel cs = some (vs, rest)) :
    readValue (fuel + 1) (.char '[' :: cs) = some (array vs, rest) := by
  obtain ⟨c, hc, tail, hskip⟩ := hopens
  rw [← readItems_skipBlanks] at h
  rw [readValue]
  split
  · next hclose =>
      rw [hskip] at hclose
      cases hclose
      exact absurd hc (by decide)
  · exact congrArg (Option.map _) h

theorem spells_array {depth : Nat} {items read : List Json}
    (h : List.Forall₂ (fun v w => Spells (indentedChars (depth + 1) v) w) items read) :
    Spells (indentedChars depth (array items)) (array read) := by
  by_cases hne : items = []
  · subst hne
    cases h
    refine ⟨⟨'[', by decide, _, rfl⟩, by simp [indentedChars, IsAscii], ?_⟩
    intro fuel hfuel rest
    obtain ⟨fuel, rfl⟩ := Nat.exists_eq_succ_of_ne_zero (Nat.ne_zero_of_lt hfuel)
    rfl
  · rw [indentedChars_array hne]
    refine ⟨⟨'[', by decide, _, rfl⟩, ?_, ?_⟩
    · exact isAscii_cons.mpr ⟨by decide, isAscii_append.mpr ⟨isAscii_append.mpr
        ⟨isAscii_indentedItems h, isAscii_newLine depth⟩, by decide⟩⟩
    · intro fuel hfuel rest
      obtain ⟨fuel, rfl⟩ := Nat.exists_eq_succ_of_ne_zero (Nat.ne_zero_of_lt hfuel)
      simp only [List.length_cons, List.length_append] at hfuel
      have hshorter : (indentedItems (depth + 1) items).length < fuel := by
        omega
      rw [List.cons_append, List.append_assoc, List.append_assoc]
      exact readValue_array (exists_opener_indentedItems h hne _)
        (readItems_indentedItems h hne hshorter depth rest)

/-! ## Objects -/

/-- A member is read under its key with the pairs joined. -/
def SpellsMember (depth : Nat) (m r : Text × Json) : Prop :=
  r.1 = Text.withPairsJoined m.1 ∧ Spells (indentedChars depth m.2) r.2

variable {depth : Nat} {k : Text}

theorem isAscii_member (h : Spells cs v) (depth : Nat) (k : Text) :
    IsAscii (newLine depth ++ quoted k ++ Text.toList ": " ++ cs) := by
  have hcolon : IsAscii (Text.toList ": ") := by
    decide
  exact isAscii_append.mpr ⟨isAscii_append.mpr ⟨isAscii_append.mpr
    ⟨isAscii_newLine depth, isAscii_quotedChars k.toList⟩, hcolon⟩, h.ascii⟩

/-- A member is read up to what stands behind it. -/
theorem Spells.readMembers_eq (h : Spells cs v) {fuel : Nat} (hfuel : cs.length < fuel)
    (depth : Nat) (k : Text) (rest : List CodePoint) :
    readMembers (fuel + 1) (newLine depth ++ quoted k ++ Text.toList ": " ++ cs ++ rest) =
      match skipBlanks rest with
      | .char ',' :: rest => do
        let (members, rest) ← readMembers fuel rest
        return ((Text.withPairsJoined k, v) :: members, rest)
      | .char '\x7d' :: rest => some ([(Text.withPairsJoined k, v)], rest)
      | _ => none := by
  have hkey :=
    (ReadsText.flatMap_escapeChar k.toList (.char ':' :: .char ' ' :: (cs ++ rest))) none nofun
  simp only [resting, loneHigh, List.nil_append] at hkey
  have hspace : skipBlanks (.char ' ' :: (cs ++ rest)) = cs ++ rest := by
    obtain ⟨c, hc, tail, rfl⟩ := h.opens
    exact skipBlanks_cons (isBlank_of_mem_openers hc) _
  have hwritten : newLine depth ++ quoted k ++ Text.toList ": " ++ cs ++ rest =
      newLine depth ++
        .char '"' :: (k.toList.flatMap escapeChar ++
          .char '"' :: .char ':' :: .char ' ' :: (cs ++ rest)) := by
    simp [quoted, quotedChars]
  rw [hwritten, readMembers, skipBlanks_close depth (by decide)]
  simp only [hkey, Option.bind_eq_bind, Option.bind_some]
  rw [skipBlanks_cons (by decide)]
  simp only [hspace, h.reads hfuel, Option.bind_some]
  rfl

theorem indentedMembers_cons {members : List (Text × Json)} (h : members ≠ []) (depth : Nat)
    (m : Text × Json) :
    indentedMembers depth (m :: members) =
      newLine depth ++ quoted m.1 ++ Text.toList ": " ++ indentedChars depth m.2 ++
        .char ',' :: indentedMembers depth members := by
  cases members with
  | nil => exact absurd rfl h
  | cons m' members => simp [indentedMembers]

theorem isAscii_indentedMembers {members read : List (Text × Json)}
    (h : List.Forall₂ (SpellsMember depth) members read) :
    IsAscii (indentedMembers depth members) := by
  induction h with
  | nil => exact isAscii_nil
  | @cons m r members read hm hrest ih =>
      have hfirst := isAscii_member hm.2 depth m.1
      cases hrest with
      | nil => exact hfirst
      | cons =>
          rw [indentedMembers_cons (List.cons_ne_nil _ _)]
          exact isAscii_append.mpr ⟨hfirst, isAscii_cons.mpr ⟨by decide, ih⟩⟩

theorem readMembers_indentedMembers {members read : List (Text × Json)}
    (h : List.Forall₂ (SpellsMember depth) members read) (hne : members ≠ []) {fuel : Nat}
    (hfuel : (indentedMembers depth members).length < fuel) (outer : Nat) (rest : List CodePoint) :
    readMembers fuel (indentedMembers depth members ++ (newLine outer ++ .char '\x7d' :: rest)) =
      some (read, rest) := by
  induction h generalizing fuel with
  | nil => exact absurd rfl hne
  | @cons m r members read hm hrest ih =>
      obtain ⟨k, w⟩ := r
      obtain ⟨hkey, hvalue⟩ := hm
      obtain ⟨fuel, rfl⟩ := Nat.exists_eq_succ_of_ne_zero (Nat.ne_zero_of_lt hfuel)
      dsimp only at hkey hvalue
      rw [hkey]
      by_cases hlast : members = []
      · subst hlast
        cases hrest
        simp only [indentedMembers, newLine, List.length_append, List.length_cons] at hfuel
        rw [indentedMembers, hvalue.readMembers_eq (by omega), skipBlanks_close outer (by decide)]
        rfl
      · rw [indentedMembers_cons hlast] at hfuel ⊢
        simp only [newLine, List.length_append, List.length_cons] at hfuel
        have hshorter : (indentedMembers depth members).length < fuel := by
          omega
        rw [List.append_assoc, List.cons_append, hvalue.readMembers_eq (by omega),
          skipBlanks_cons (by decide)]
        simp only [ih hlast hshorter]
        rfl

theorem readMembers_skipBlanks (fuel : Nat) (cs : List CodePoint) :
    readMembers fuel (skipBlanks cs) = readMembers fuel cs := by
  cases fuel with
  | zero => simp only [readMembers]
  | succ fuel => simp only [readMembers, skipBlanks_idem]

/-- Behind the brace there is a key in sight. -/
theorem exists_quote_indentedMembers {members : List (Text × Json)} (hne : members ≠ [])
    (rest : List CodePoint) :
    ∃ tail, skipBlanks (indentedMembers depth members ++ rest) = .char '"' :: tail := by
  have hquote : isBlank '"' = false := rfl
  obtain ⟨m, members, rfl⟩ := List.exists_cons_of_ne_nil hne
  cases members with
  | nil =>
      simp only [indentedMembers, quoted, quotedChars, List.append_assoc, List.cons_append]
      exact ⟨_, skipBlanks_close depth hquote _⟩
  | cons m' members =>
      simp only [indentedMembers, quoted, quotedChars, List.append_assoc, List.cons_append]
      exact ⟨_, skipBlanks_close depth hquote _⟩

theorem readValue_object {fuel : Nat} {cs rest : List CodePoint} {ms : List (Text × Json)}
    (hopens : ∃ tail, skipBlanks cs = .char '"' :: tail)
    (h : readMembers fuel cs = some (ms, rest)) :
    readValue (fuel + 1) (.char '\x7b' :: cs) = some (object ms, rest) := by
  obtain ⟨tail, hskip⟩ := hopens
  rw [← readMembers_skipBlanks] at h
  rw [readValue]
  split
  · next hclose =>
      rw [hskip] at hclose
      cases hclose
  · exact congrArg (Option.map _) h

theorem indentedChars_object {members : List (Text × Json)} (h : members ≠ []) (depth : Nat) :
    indentedChars depth (object members) =
      .char '\x7b' :: (indentedMembers (depth + 1) members ++ newLine depth ++ [.char '\x7d']) := by
  cases members with
  | nil => exact absurd rfl h
  | cons m members => simp [indentedChars]

theorem spells_object {members read : List (Text × Json)}
    (h : List.Forall₂ (SpellsMember (depth + 1)) members read) (hne : members ≠ []) :
    Spells (indentedChars depth (object members)) (object read) := by
  rw [indentedChars_object hne]
  refine ⟨⟨'\x7b', by decide, _, rfl⟩, ?_, ?_⟩
  · exact isAscii_cons.mpr ⟨by decide, isAscii_append.mpr ⟨isAscii_append.mpr
      ⟨isAscii_indentedMembers h, isAscii_newLine depth⟩, by decide⟩⟩
  · intro fuel hfuel rest
    obtain ⟨fuel, rfl⟩ := Nat.exists_eq_succ_of_ne_zero (Nat.ne_zero_of_lt hfuel)
    simp only [List.length_cons, List.length_append] at hfuel
    have hshorter : (indentedMembers (depth + 1) members).length < fuel := by
      omega
    rw [List.cons_append, List.append_assoc, List.append_assoc]
    exact readValue_object (exists_quote_indentedMembers hne _)
      (readMembers_indentedMembers h hne hshorter depth rest)

/-! ## Documents -/

theorem skipBlanks_of_isBlank {gap : List CodePoint} (h : ∀ c ∈ gap, isBlank c = true) :
    skipBlanks gap = [] :=
  List.dropWhile_eq_nil_iff.mpr h

/-- A document may have blanks behind it. -/
theorem Spells.read_append (h : Spells cs v) {gap : List CodePoint}
    (hgap : ∀ c ∈ gap, isBlank c = true) : read (Text.ofList (cs ++ gap)) = some v := by
  obtain ⟨c, hc, tail, rfl⟩ := h.opens
  have hfuel : (c :: tail).length < ((c :: tail) ++ gap).length + 1 := by
    rw [List.length_append]
    omega
  have hread := h.reads hfuel gap
  have hskip : skipBlanks ((c :: tail) ++ gap) = (c :: tail) ++ gap :=
    skipBlanks_cons (isBlank_of_mem_openers hc) _
  rw [read, Text.toList_ofList, hskip, hread]
  simp [skipBlanks_of_isBlank hgap]

end NameCatalog.Json
