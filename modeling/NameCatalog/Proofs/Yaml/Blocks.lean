import NameCatalog.Proofs.Outcome
import NameCatalog.Yaml.Stack

/-!
# Documents in block style

Texts between quotes, lists, and mappings from words are put together here in three ways at once: as
values, as nodes, and as the tokens of block collections. The tokens are read as the node, and the
node has the value.
-/

namespace NameCatalog

namespace Value

def textEntry (f : Text × Value) : Value × Value := (.text f.1, f.2)

theorem putEntry_of_new {fields : List (Text × Value)} {key : Text}
    (h : ∀ f ∈ fields, f.1 ≠ key) (v : Value) :
    putEntry (fields.map textEntry) (.text key) v = (fields ++ [(key, v)]).map textEntry := by
  induction fields with
  | nil => rfl
  | cons f fields ih =>
      obtain ⟨hf, hfields⟩ := List.forall_mem_cons.mp h
      have hother : (text f.1).sameKey (text key) = false := beq_false_of_ne hf
      rw [List.map_cons, textEntry, putEntry, hother, if_neg Bool.false_ne_true, ih hfields]
      rfl

/-- Entries of distinct texts are put one behind the other. -/
theorem putAll_texts (before : List (Text × Value)) {fields : List (Text × Value)}
    (h : ((before ++ fields).map Prod.fst).Nodup) :
    putAll (before.map textEntry) (fields.map textEntry) = (before ++ fields).map textEntry := by
  induction fields generalizing before with
  | nil => rw [List.append_nil, List.map_nil, putAll, List.foldl_nil]
  | cons f fields ih =>
      have hnew : ∀ g ∈ before, g.1 ≠ f.1 := by
        intro g hg
        rw [List.map_append, List.nodup_append] at h
        exact h.2.2 g.1 (List.mem_map_of_mem hg) f.1 List.mem_cons_self
      rw [List.append_cons] at h ⊢
      rw [← ih _ h, ← putEntry_of_new hnew]
      rfl

end Value

namespace Yaml

/-- A value, its node and its tokens. -/
structure Block where
  value : Value
  node : Node
  tokens : List Token

namespace Block

def text (s : Text) : Block := ⟨.text s, .scalar none .text s, [.scalar s false]⟩

def noItems : Block :=
  ⟨.list [], .sequence none .sequence [], [.flowSequenceStart, .flowSequenceEnd]⟩

def itemTokens (items : List Block) : List Token :=
  items.flatMap fun b => .blockEntry :: b.tokens

def sequence (items : List Block) : Block where
  value := .list (items.map value)
  node := .sequence none .sequence (items.map node)
  tokens := .blockSequenceStart :: (itemTokens items ++ [.blockEnd])

def entry (f : Text × Block) : Node × Node := (.scalar none .text f.1, f.2.node)

def entryTokens (fields : List (Text × Block)) : List Token :=
  fields.flatMap fun f => .key :: .scalar f.1 true :: .value :: f.2.tokens

def mapping (fields : List (Text × Block)) : Block where
  value := .mapping (fields.map fun f => Value.textEntry (f.1, f.2.value))
  node := .mapping none .mapping (fields.map entry)
  tokens := .blockMappingStart :: (entryTokens fields ++ [.blockEnd])

/-- A block that is put together, with collections at most `depth` deep in each other. -/
inductive Within : Nat → Block → Prop
  | text (depth : Nat) (s : Text) : Within depth (text s)
  | noItems (depth : Nat) : Within (depth + 1) noItems
  | sequence {depth : Nat} {items : List Block} (h : ∀ b ∈ items, Within depth b) :
      Within (depth + 1) (sequence items)
  | mapping {depth : Nat} {fields : List (Text × Block)}
      (hwords : ∀ w ∈ fields.map Prod.fst, Tag.ofPlain w = .text)
      (hdistinct : (fields.map Prod.fst).Nodup) (h : ∀ f ∈ fields, Within depth f.2) :
      Within (depth + 1) (mapping fields)

/-! ## Reading tokens -/

section Reading

open Node (readOrNull readBlockItems readBlockEntries readBlockValue endsItem)

variable {handles : List (Text × Text)} {depth : Nat} {b : Block}

/-- No node is left out where a block begins. -/
theorem Within.begins (h : Within depth b) (rest : List Token) :
    endsItem (b.tokens ++ rest) [.blockEntry, .blockEnd] = false ∧
      endsItem (b.tokens ++ rest) [.key, .value, .blockEnd] = false := by
  cases h with
  | text => exact ⟨rfl, rfl⟩
  | noItems => exact ⟨rfl, rfl⟩
  | sequence => exact ⟨rfl, rfl⟩
  | mapping => exact ⟨rfl, rfl⟩

theorem read_scalar (fuel : Nat) (place : Node.Place) (s : Text) (plain : Bool)
    (rest : List Token) :
    Node.read handles (fuel + 2) place ⟨.scalar s plain :: rest, []⟩ =
      .ok (.scalar none (if plain then Tag.ofPlain s else .text) s, ⟨rest, []⟩) := by
  unfold Node.read Node.readContent
  cases plain <;> rfl

theorem read_noItems (fuel : Nat) (place : Node.Place) (rest : List Token) :
    Node.read handles (fuel + 3) place
      ⟨.flowSequenceStart :: .flowSequenceEnd :: rest, []⟩ =
        .ok (.sequence none .sequence [], ⟨rest, []⟩) := by
  unfold Node.read
  change Node.readContent handles (fuel + 2) place ⟨none, none⟩ none
    ⟨.flowSequenceStart :: .flowSequenceEnd :: rest, []⟩ = _
  unfold Node.readContent
  have hitems : Node.readFlowItems handles (fuel + 1) true ⟨.flowSequenceEnd :: rest, []⟩ =
      .ok ([], ⟨rest, []⟩) := by
    unfold Node.readFlowItems
    rfl
  exact bind_eq_ok_iff.mpr ⟨_, rfl, bind_eq_ok_iff.mpr ⟨_, hitems, rfl⟩⟩

theorem read_blockSequence (fuel : Nat) {place : Node.Place} (h : place.block = true)
    (rest : List Token) :
    Node.read handles (fuel + 2) place ⟨.blockSequenceStart :: rest, []⟩ =
      (readBlockItems handles fuel ⟨rest, []⟩).map fun p =>
        (.sequence none .sequence p.1, p.2) := by
  unfold Node.read
  change Node.readContent handles (fuel + 1) place ⟨none, none⟩ none
    ⟨.blockSequenceStart :: rest, []⟩ = _
  unfold Node.readContent
  simp only [h, if_true]
  rfl

theorem read_blockMapping (fuel : Nat) {place : Node.Place} (h : place.block = true)
    (rest : List Token) :
    Node.read handles (fuel + 2) place ⟨.blockMappingStart :: rest, []⟩ =
      (readBlockEntries handles fuel ⟨rest, []⟩).map fun p =>
        (.mapping none .mapping p.1, p.2) := by
  unfold Node.read
  change Node.readContent handles (fuel + 1) place ⟨none, none⟩ none
    ⟨.blockMappingStart :: rest, []⟩ = _
  unfold Node.readContent
  simp only [h, if_true]
  rfl

theorem readOrNull_eq (fuel : Nat) (place : Node.Place) {closing : List Token} {r : Node.Reader}
    (h : endsItem r.tokens closing = false) :
    readOrNull handles (fuel + 1) place closing r =
      Node.read handles fuel place r := by
  rw [readOrNull, h]
  rfl

/-- The tokens are read as the node. Four steps for each of them are enough. -/
def IsRead (handles : List (Text × Text)) (b : Block) : Prop :=
  ∀ (fuel : Nat) (place : Node.Place) (rest : List Token), 4 * b.tokens.length ≤ fuel + 1 →
    place.block = true →
      Node.read handles fuel place ⟨b.tokens ++ rest, []⟩ = .ok (b.node, ⟨rest, []⟩)

theorem itemTokens_cons (b : Block) (items : List Block) :
    itemTokens (b :: items) = .blockEntry :: (b.tokens ++ itemTokens items) := rfl

theorem entryTokens_cons (f : Text × Block) (fields : List (Text × Block)) :
    entryTokens (f :: fields) =
      .key :: .scalar f.1 true :: .value :: (f.2.tokens ++ entryTokens fields) := rfl

theorem readBlockItems_itemTokens {items : List Block} (h : ∀ b ∈ items, Within depth b)
    (hread : ∀ b ∈ items, IsRead handles b) (rest : List Token) {fuel : Nat}
    (hfuel : 4 * (itemTokens items).length < fuel) :
    readBlockItems handles fuel ⟨itemTokens items ++ .blockEnd :: rest, []⟩ =
      .ok (items.map node, ⟨rest, []⟩) := by
  induction items generalizing fuel with
  | nil =>
      obtain ⟨fuel, rfl⟩ := Nat.exists_eq_add_one_of_ne_zero (Nat.ne_of_gt hfuel)
      unfold readBlockItems
      rfl
  | cons b items ih =>
      obtain ⟨hb, hitems⟩ := List.forall_mem_cons.mp h
      obtain ⟨hfirst, hothers⟩ := List.forall_mem_cons.mp hread
      simp only [itemTokens_cons, List.length_cons, List.length_append] at hfuel
      obtain ⟨fuel, rfl⟩ : ∃ k, fuel = k + 2 := ⟨fuel - 2, by omega⟩
      have hitem := hfirst fuel Node.inBlock (itemTokens items ++ .blockEnd :: rest) (by omega) rfl
      have hmore := ih hitems hothers (by omega : _ < fuel + 1)
      have hbegins := (hb.begins (itemTokens items ++ .blockEnd :: rest)).1
      rw [← readOrNull_eq fuel Node.inBlock hbegins] at hitem
      rw [itemTokens_cons, List.cons_append, List.append_assoc]
      unfold readBlockItems
      exact bind_eq_ok_iff.mpr ⟨_, hitem, bind_eq_ok_iff.mpr ⟨_, hmore, rfl⟩⟩

theorem readBlockEntries_entryTokens {fields : List (Text × Block)}
    (hwords : ∀ w ∈ fields.map Prod.fst, Tag.ofPlain w = .text)
    (h : ∀ f ∈ fields, Within depth f.2) (hread : ∀ f ∈ fields, IsRead handles f.2)
    (rest : List Token) {fuel : Nat} (hfuel : 4 * (entryTokens fields).length < fuel) :
    readBlockEntries handles fuel ⟨entryTokens fields ++ .blockEnd :: rest, []⟩ =
      .ok (fields.map entry, ⟨rest, []⟩) := by
  induction fields generalizing fuel with
  | nil =>
      obtain ⟨fuel, rfl⟩ := Nat.exists_eq_add_one_of_ne_zero (Nat.ne_of_gt hfuel)
      unfold readBlockEntries
      rfl
  | cons f fields ih =>
      obtain ⟨hword, hwords⟩ := List.forall_mem_cons.mp hwords
      obtain ⟨hf, hfields⟩ := List.forall_mem_cons.mp h
      obtain ⟨hfirst, hothers⟩ := List.forall_mem_cons.mp hread
      simp only [entryTokens_cons, List.length_cons, List.length_append] at hfuel
      obtain ⟨fuel, rfl⟩ : ∃ k, fuel = k + 4 := ⟨fuel - 4, by omega⟩
      have hkey (rest : List Token) : readOrNull handles (fuel + 3) Node.inMapping
          [.key, .value, .blockEnd] ⟨.scalar f.1 true :: rest, []⟩ =
            .ok (.scalar none .text f.1, ⟨rest, []⟩) := by
        rw [readOrNull_eq (fuel + 2) Node.inMapping rfl, read_scalar, if_pos rfl, hword]
      have hvalue := hfirst (fuel + 1) Node.inMapping (entryTokens fields ++ .blockEnd :: rest)
        (by omega) rfl
      have hbegins := (hf.begins (entryTokens fields ++ .blockEnd :: rest)).2
      have hafter : readBlockValue handles (fuel + 3)
          ⟨.value :: (f.2.tokens ++ (entryTokens fields ++ .blockEnd :: rest)), []⟩ =
            .ok (f.2.node, ⟨entryTokens fields ++ .blockEnd :: rest, []⟩) := by
        unfold readBlockValue
        exact (readOrNull_eq (fuel + 1) Node.inMapping hbegins).trans hvalue
      have hmore := ih hwords hfields hothers (by omega : _ < fuel + 3)
      rw [entryTokens_cons, List.cons_append, List.cons_append, List.cons_append,
        List.append_assoc]
      unfold readBlockEntries
      exact bind_eq_ok_iff.mpr ⟨_, hkey _, bind_eq_ok_iff.mpr ⟨_, hafter,
        bind_eq_ok_iff.mpr ⟨_, hmore, rfl⟩⟩⟩

theorem Within.isRead (h : Within depth b) : IsRead handles b := by
  induction h with
  | text _ s =>
      intro fuel place rest hfuel _
      simp only [Block.text, List.length_singleton] at hfuel
      obtain ⟨fuel, rfl⟩ : ∃ k, fuel = k + 2 := ⟨fuel - 2, by omega⟩
      exact read_scalar fuel place s false rest
  | noItems _ =>
      intro fuel place rest hfuel _
      simp only [Block.noItems, List.length_cons, List.length_nil] at hfuel
      obtain ⟨fuel, rfl⟩ : ∃ k, fuel = k + 3 := ⟨fuel - 3, by omega⟩
      exact read_noItems fuel place rest
  | sequence h ih =>
      intro fuel place rest hfuel hplace
      simp only [Block.sequence, List.length_cons, List.length_append, List.length_nil] at hfuel
      obtain ⟨fuel, rfl⟩ : ∃ k, fuel = k + 2 := ⟨fuel - 2, by omega⟩
      rw [Block.sequence, List.cons_append, List.append_assoc, List.singleton_append,
        read_blockSequence fuel hplace]
      exact map_eq_ok_iff.mpr ⟨_, readBlockItems_itemTokens h ih rest (by omega), rfl⟩
  | mapping hwords hdistinct h ih =>
      intro fuel place rest hfuel hplace
      simp only [Block.mapping, List.length_cons, List.length_append, List.length_nil] at hfuel
      obtain ⟨fuel, rfl⟩ : ∃ k, fuel = k + 2 := ⟨fuel - 2, by omega⟩
      rw [Block.mapping, List.cons_append, List.append_assoc, List.singleton_append,
        read_blockMapping fuel hplace]
      exact map_eq_ok_iff.mpr ⟨_, readBlockEntries_entryTokens hwords h ih rest (by omega), rfl⟩

/-- The tokens of a block and the end are a document. -/
theorem Within.node (h : Within depth b) :
    Document.node (b.tokens ++ [.streamEnd]) = .ok (some b.node) := by
  have hread : Document.root Document.standardHandles (b.tokens ++ [.streamEnd]) =
      .ok (b.node, ⟨[.streamEnd], []⟩) := by
    refine h.isRead _ Node.inBlock [.streamEnd] ?_ rfl
    rw [List.length_append]
    omega
  have hunmarked : Document.node (b.tokens ++ [.streamEnd]) =
      Document.whole Document.standardHandles (b.tokens ++ [.streamEnd]) := by
    cases h with
    | text => rfl
    | noItems => rfl
    | sequence => rfl
    | mapping => rfl
  rw [hunmarked]
  exact bind_eq_ok_iff.mpr ⟨_, hread, rfl⟩

end Reading

/-! ## Building values -/

variable {depth : Nat} {b : Block}

theorem areTrees_nodes {items : List Block} (h : ∀ b ∈ items, b.node.isTree = true) :
    Node.areTrees (items.map node) = true := by
  induction items with
  | nil => rfl
  | cons b items ih =>
      obtain ⟨hb, hitems⟩ := List.forall_mem_cons.mp h
      rw [List.map_cons, Node.areTrees, hb, ih hitems, Bool.and_self]

theorem areEntryTrees_entries {fields : List (Text × Block)}
    (h : ∀ f ∈ fields, f.2.node.isTree = true) :
    Node.areEntryTrees (fields.map entry) = true := by
  induction fields with
  | nil => rfl
  | cons f fields ih =>
      obtain ⟨hf, hfields⟩ := List.forall_mem_cons.mp h
      rw [List.map_cons, entry, Node.areEntryTrees, hf, ih hfields]
      rfl

theorem Within.isTree (h : Within depth b) : b.node.isTree = true := by
  induction h with
  | text => rfl
  | noItems => rfl
  | sequence h ih => exact areTrees_nodes ih
  | mapping hwords hdistinct h ih => exact areEntryTrees_entries ih

theorem itemsDepth_nodes_le {items : List Block} (h : ∀ b ∈ items, b.node.depth ≤ depth) :
    Node.itemsDepth (items.map node) ≤ depth := by
  induction items with
  | nil => exact Nat.zero_le depth
  | cons b items ih =>
      obtain ⟨hb, hitems⟩ := List.forall_mem_cons.mp h
      rw [List.map_cons, Node.itemsDepth]
      exact Nat.max_le.mpr ⟨hb, ih hitems⟩

theorem entriesDepth_entries_le {fields : List (Text × Block)}
    (h : ∀ f ∈ fields, f.2.node.depth ≤ depth) : Node.entriesDepth (fields.map entry) ≤ depth := by
  induction fields with
  | nil => exact Nat.zero_le depth
  | cons f fields ih =>
      obtain ⟨hf, hfields⟩ := List.forall_mem_cons.mp h
      rw [List.map_cons, entry, Node.entriesDepth]
      exact Nat.max_le.mpr ⟨Nat.max_le.mpr ⟨Nat.zero_le depth, hf⟩, ih hfields⟩

theorem Within.depth_le (h : Within depth b) : b.node.depth ≤ depth := by
  induction h with
  | text depth _ => exact Nat.zero_le depth
  | noItems depth => exact Nat.succ_le_succ (Nat.zero_le depth)
  | sequence h ih => exact Nat.succ_le_succ (itemsDepth_nodes_le ih)
  | mapping hwords hdistinct h ih => exact Nat.succ_le_succ (entriesDepth_entries_le ih)

theorem buildItems_nodes {items : List Block} (level : Nat)
    (h : ∀ b ∈ items, b.node.build level = .ok b.value) :
    Node.buildItems level (items.map node) = .ok (items.map value) := by
  induction items with
  | nil => rfl
  | cons b items ih =>
      obtain ⟨hb, hitems⟩ := List.forall_mem_cons.mp h
      rw [List.map_cons, Node.buildItems, hb, ih hitems, Outcome.cons_ok, List.map_cons]

def pending (f : Text × Block) : Pending := ⟨true, .ok (.text f.1), .ok f.2.value⟩

theorem splitEntries_entries {fields : List (Text × Block)} (level : Nat)
    (h : ∀ f ∈ fields, f.2.node.build level = .ok f.2.value) :
    Node.splitEntries level (fields.map entry) = .ok ([], fields.map pending) := by
  induction fields with
  | nil => rfl
  | cons f fields ih =>
      obtain ⟨hf, hfields⟩ := List.forall_mem_cons.mp h
      rw [List.map_cons, entry, Node.splitEntries, ih hfields, hf]
      rfl

theorem outcomes_pending (level : Nat) (fields : List (Text × Block)) :
    Pending.outcomes level (fields.map pending) =
      .ok (fields.map fun f => Value.textEntry (f.1, f.2.value)) := by
  induction fields with
  | nil => rfl
  | cons f fields ih =>
      rw [List.map_cons, Pending.outcomes, ih]
      rfl

theorem Within.build (h : Within depth b) (level : Nat) : b.node.build level = .ok b.value := by
  induction h generalizing level with
  | text => rfl
  | noItems => rfl
  | sequence h ih =>
      have hitems := buildItems_nodes (level + 1) fun b hb => ih b hb (level + 1)
      simp only [Block.sequence, Node.build, hitems]
      rfl
  | @mapping _ fields hwords hdistinct h ih =>
      have hentries := splitEntries_entries (level + 1) fun f hf => ih f hf (level + 1)
      have hkeys : ((fields.map fun f => (f.1, f.2.value)).map Prod.fst).Nodup := by
        rw [List.map_map]
        exact hdistinct
      have hput := Value.putAll_texts [] hkeys
      rw [List.map_nil, List.nil_append, List.map_map] at hput
      simp only [Block.mapping, Node.build, hentries, Pending.joined, List.nil_append,
        outcomes_pending]
      exact congrArg (fun es => Except.ok (Value.mapping es)) hput

theorem arrangedEntries_textEntries {order : List Value → List Value} {fields : List (Text × Block)}
    (h : ∀ f ∈ fields, f.2.value.arranged order = f.2.value) :
    Value.arrangedEntries order (fields.map fun f => Value.textEntry (f.1, f.2.value)) =
      fields.map fun f => Value.textEntry (f.1, f.2.value) := by
  induction fields with
  | nil => rfl
  | cons f fields ih =>
      obtain ⟨hf, hfields⟩ := List.forall_mem_cons.mp h
      rw [List.map_cons, Value.textEntry, Value.arrangedEntries, hf, ih hfields]
      rfl

/-- There are no sets in a block. -/
theorem Within.arranged_value (h : Within depth b) (order : List Value → List Value) :
    b.value.arranged order = b.value := by
  induction h with
  | text => rfl
  | noItems => rfl
  | @sequence _ items h ih =>
      have hitems : (items.map value).map (Value.arranged order) = items.map value := by
        rw [List.map_map]
        exact List.map_congr_left ih
      rw [Block.sequence, Value.arranged, Value.arrangedAll_eq_map, hitems]
  | mapping hwords hdistinct h ih =>
      rw [Block.mapping, Value.arranged, arrangedEntries_textEntries ih]

/-- A shallow block fits on every stack. -/
theorem Within.read {depth : Nat} {b : Block} {cs : List CodePoint} (h : Within depth b)
    (hdepth : depth ≤ 8) (hallowed : cs.all isAllowed = true)
    (htokens : Token.ofText cs = b.tokens ++ [.streamEnd]) (stack : Stack) :
    stack.read cs = .ok (.tree b.value) := by
  have hnode : Document.node (Token.ofText cs) = .ok (some b.node) := by
    rw [htokens]
    exact h.node
  have hfits := stack.shallow_fits cs b.node hnode h.isTree (Nat.le_trans h.depth_le hdepth)
  have hdocument : Document.ofNode (some b.node) = .ok (.tree b.value) := by
    rw [Document.ofNode, if_pos h.isTree, h.build]
    rfl
  rw [Stack.read_of_fits hfits, Yaml.read, if_pos hallowed]
  exact bind_eq_ok_iff.mpr ⟨_, hnode, hdocument⟩

end Block

end Yaml

end NameCatalog
