import NameCatalog.Proofs.Yaml.Resolution
import NameCatalog.Proofs.Yaml.Tokens
import NameCatalog.Yaml.Document

/-!
# The nodes of ordinary text

Without tag tokens every collection has the tag of its kind, and every scalar is text or fits the
type that was found for it. The readers call each other with ever less fuel, so one induction shows
this for all of them.
-/

namespace NameCatalog.Yaml

/-- A node that ordinary text can have. -/
inductive Node.Ordinary : Node → Prop
  | scalar {anchor : Option Text} {tag : Tag} {text : Text} (h : tag.Fits text) :
      Ordinary (.scalar anchor tag text)
  | sequence {anchor : Option Text} {items : List Node} (h : ∀ n ∈ items, Ordinary n) :
      Ordinary (.sequence anchor .sequence items)
  | mapping {anchor : Option Text} {entries : List (Node × Node)}
      (hkeys : ∀ e ∈ entries, Ordinary e.1) (hvalues : ∀ e ∈ entries, Ordinary e.2) :
      Ordinary (.mapping anchor .mapping entries)
  | aliasOf {name : Text} : Ordinary (.aliasOf name)

namespace Node

theorem ordinary_null : null.Ordinary := .scalar (.ok trivial)

namespace Reader

def Ordinary (r : Reader) : Prop := ∀ t ∈ r.tokens, t.Ordinary

variable {r : Reader}

theorem Ordinary.next (h : r.Ordinary) : r.next.Ordinary :=
  fun t ht => h t (List.mem_of_mem_drop ht)

theorem Ordinary.ends_refuse (h : r.Ordinary) {α : Type} {P : α → Prop} :
    Ends Fault.Ordinary P r.refuse := by
  unfold refuse
  split
  · next f rest htokens =>
      have hf : (Token.fault f).Ordinary := h _ (by rw [htokens]; exact List.mem_cons_self)
      exact .error hf
  · exact ends_invalid

theorem Ordinary.ends_look (h : r.Ordinary) : Ends Fault.Ordinary (fun _ => True) r.look := by
  unfold look
  split
  · next f rest htokens =>
      have hf : (Token.fault f).Ordinary := h _ (by rw [htokens]; exact List.mem_cons_self)
      exact .error hf
  · exact .ok trivial

theorem Ordinary.ends_bind (h : r.Ordinary) (anchor : Option Text) :
    Ends Fault.Ordinary Ordinary (r.bind anchor) := by
  cases anchor with
  | none => exact .ok h
  | some a => exact Ends.ite (fun _ => ends_invalid) (fun _ => .ok h)

end Reader

/-- A reader that gives something of a kind and leaves ordinary tokens. -/
abbrev Parses {α : Type} (P : α → Prop) : Except Fault (α × Reader) → Prop :=
  Ends Fault.Ordinary fun p => P p.1 ∧ p.2.Ordinary

variable {r : Reader} {props : Properties}

/-! ## Properties and scalars -/

theorem properties_of_ordinary {ts : List Token} (h : ∀ t ∈ ts, t.Ordinary) :
    (properties ts).1.tag = none ∧ ∀ t ∈ (properties ts).2, t.Ordinary := by
  unfold properties
  split
  · exact (h (.tag _ _) (List.mem_cons_of_mem _ List.mem_cons_self)).elim
  · exact (h (.tag _ _) List.mem_cons_self).elim
  · next a rest _ => exact ⟨rfl, fun t ht => h t (List.mem_cons_of_mem _ ht)⟩
  · exact (h (.tag _ _) List.mem_cons_self).elim
  · exact ⟨rfl, h⟩

theorem Reader.Ordinary.ends_lookForSecond (h : r.Ordinary) (props : Properties) :
    Ends Fault.Ordinary (fun _ => True) (lookForSecond props r) :=
  Ends.ite (fun _ => .ok trivial) (fun _ => h.ends_look)

theorem parses_scalarNode (h : r.Ordinary) (hprops : props.tag = none) {plain : Bool}
    {text : Text} (htext : plain = true → text.toList.getLast? ≠ some (.char '\n')) :
    Parses Ordinary (scalarNode props none plain text r) := by
  have hfits : (scalarTag none props.tag.isSome plain text).Fits text := by
    simp only [scalarTag, hprops, Option.isSome_none, Bool.or_false]
    split
    · next hplain => exact Tag.fits_ofPlain (htext hplain)
    · exact Tag.fits_text text
  exact (h.ends_bind props.anchor).bind fun _ hr => .ok ⟨.scalar hfits, hr⟩

theorem parses_emptyNode (h : r.Ordinary) (hprops : props.tag = none) :
    Parses Ordinary (emptyNode props none r) := by
  refine Ends.ite (fun _ => h.ends_refuse) (fun _ => ?_)
  exact parses_scalarNode h hprops fun _ => nofun

/-! ## Collections -/

theorem parses_sequence (h : r.Ordinary) (anchor : Option Text)
    {readItems : Reader → Except Fault (List Node × Reader)}
    (hread : ∀ {r : Reader}, r.Ordinary → Parses (fun ns => ∀ n ∈ ns, n.Ordinary) (readItems r)) :
    Parses Ordinary (do
      let (items, r) ← readItems (← r.bind anchor)
      return (sequence anchor (collectionTag none .sequence) items, r)) := by
  -- the name of a collection is given before its parts are read
  refine (h.ends_bind anchor).bind fun _ hr => ?_
  refine (hread hr).bind ?_
  rintro ⟨items, r⟩ ⟨hitems, hr⟩
  exact .ok ⟨.sequence hitems, hr⟩

theorem parses_mapping (h : r.Ordinary) (anchor : Option Text)
    {readEntries : Reader → Except Fault (List (Node × Node) × Reader)}
    (hread : ∀ {r : Reader}, r.Ordinary →
      Parses (fun es => ∀ e ∈ es, e.1.Ordinary ∧ e.2.Ordinary) (readEntries r)) :
    Parses Ordinary (do
      let (entries, r) ← readEntries (← r.bind anchor)
      return (mapping anchor (collectionTag none .mapping) entries, r)) := by
  refine (h.ends_bind anchor).bind fun _ hr => ?_
  refine (hread hr).bind ?_
  rintro ⟨entries, r⟩ ⟨hentries, hr⟩
  exact .ok ⟨.mapping (fun e he => (hentries e he).1) (fun e he => (hentries e he).2), hr⟩

theorem parses_cons {α : Type} {P : α → Prop} {first : Except Fault (α × Reader)}
    {others : Reader → Except Fault (List α × Reader)} (hfirst : Parses P first)
    (hothers : ∀ {r : Reader}, r.Ordinary → Parses (fun as => ∀ a ∈ as, P a) (others r)) :
    Parses (fun as => ∀ a ∈ as, P a) (do
      let (a, r) ← first
      let (as, r) ← others r
      return (a :: as, r)) := by
  refine hfirst.bind ?_
  rintro ⟨a, r⟩ ⟨ha, hr⟩
  refine (hothers hr).bind ?_
  rintro ⟨as, r⟩ ⟨has, hr⟩
  exact .ok ⟨List.forall_mem_cons.mpr ⟨ha, has⟩, hr⟩

/-- A key, its value, and the other entries. -/
theorem parses_entry {key : Except Fault (Node × Reader)}
    {value : Reader → Except Fault (Node × Reader)}
    {others : Reader → Except Fault (List (Node × Node) × Reader)} (hkey : Parses Ordinary key)
    (hvalue : ∀ {r : Reader}, r.Ordinary → Parses Ordinary (value r))
    (hothers : ∀ {r : Reader}, r.Ordinary →
      Parses (fun es => ∀ e ∈ es, e.1.Ordinary ∧ e.2.Ordinary) (others r)) :
    Parses (fun es => ∀ e ∈ es, e.1.Ordinary ∧ e.2.Ordinary) (do
      let (k, r) ← key
      let (v, r) ← value r
      let (entries, r) ← others r
      return ((k, v) :: entries, r)) := by
  refine hkey.bind ?_
  rintro ⟨k, r⟩ ⟨hk, hr⟩
  refine (hvalue hr).bind ?_
  rintro ⟨v, r⟩ ⟨hv, hr⟩
  refine (hothers hr).bind ?_
  rintro ⟨entries, r⟩ ⟨hentries, hr⟩
  exact .ok ⟨List.forall_mem_cons.mpr ⟨⟨hk, hv⟩, hentries⟩, hr⟩

/-- What every reader does when it has this much fuel. -/
structure Sound (handles : List (Text × Text)) (fuel : Nat) : Prop where
  read {place : Place} {r : Reader} (h : r.Ordinary) :
    Parses Ordinary (read handles fuel place r)
  content {place : Place} {props : Properties} {r : Reader} (h : r.Ordinary)
    (hprops : props.tag = none) :
    Parses Ordinary (readContent handles fuel place props none r)
  orNull {place : Place} {closing : List Token} {r : Reader} (h : r.Ordinary) :
    Parses Ordinary (readOrNull handles fuel place closing r)
  blockItems {r : Reader} (h : r.Ordinary) :
    Parses (fun ns => ∀ n ∈ ns, n.Ordinary) (readBlockItems handles fuel r)
  indentless {r : Reader} (h : r.Ordinary) :
    Parses (fun ns => ∀ n ∈ ns, n.Ordinary) (readIndentless handles fuel r)
  blockEntries {r : Reader} (h : r.Ordinary) :
    Parses (fun es => ∀ e ∈ es, e.1.Ordinary ∧ e.2.Ordinary) (readBlockEntries handles fuel r)
  blockValue {r : Reader} (h : r.Ordinary) :
    Parses Ordinary (readBlockValue handles fuel r)
  flowItems {first : Bool} {r : Reader} (h : r.Ordinary) :
    Parses (fun ns => ∀ n ∈ ns, n.Ordinary) (readFlowItems handles fuel first r)
  flowItem {r : Reader} (h : r.Ordinary) :
    Parses (fun ns => ∀ n ∈ ns, n.Ordinary) (readFlowItem handles fuel r)
  single {r : Reader} (h : r.Ordinary) :
    Parses (fun e => e.1.Ordinary ∧ e.2.Ordinary) (readSingle handles fuel r)
  flowValue {closing : List Token} {r : Reader} (h : r.Ordinary) :
    Parses Ordinary (readFlowValue handles fuel closing r)
  flowEntries {first : Bool} {r : Reader} (h : r.Ordinary) :
    Parses (fun es => ∀ e ∈ es, e.1.Ordinary ∧ e.2.Ordinary)
      (readFlowEntries handles fuel first r)
  flowEntry {r : Reader} (h : r.Ordinary) :
    Parses (fun es => ∀ e ∈ es, e.1.Ordinary ∧ e.2.Ordinary) (readFlowEntry handles fuel r)

namespace Sound

variable {handles : List (Text × Text)} {fuel : Nat}

theorem step_read (ih : Sound handles fuel) (h : r.Ordinary) {place : Place} :
    Parses Ordinary (Node.read handles (fuel + 1) place r) := by
  unfold Node.read
  split
  · exact Ends.ite (fun _ => .ok ⟨.aliasOf, h.next⟩) (fun _ => ends_invalid)
  · obtain ⟨hprops, hrest⟩ := properties_of_ordinary h
    generalize properties r.tokens = p at hprops hrest
    obtain ⟨props, rest⟩ := p
    have hreader : Reader.Ordinary { r with tokens := rest } := hrest
    refine (hreader.ends_lookForSecond props).bind fun _ _ => ?_
    rw [hprops]
    exact hreader.ends_look.bind fun _ _ => ih.content hreader hprops

theorem step_content (ih : Sound handles fuel) (h : r.Ordinary) (hprops : props.tag = none)
    {place : Place} :
    Parses Ordinary (readContent handles (fuel + 1) place props none r) := by
  have hscalar {text : Text} {plain : Bool} {rest : List Token}
      (htokens : r.tokens = .scalar text plain :: rest) :
      Parses Ordinary (scalarNode props none plain text r.next) := by
    have htext : (Token.scalar text plain).Ordinary :=
      h _ (by rw [htokens]; exact List.mem_cons_self)
    exact parses_scalarNode h.next hprops htext
  have hempty := parses_emptyNode h hprops
  unfold readContent
  simp only
  split
  · exact Ends.ite (fun _ => parses_sequence h _ ih.indentless) (fun _ => hempty)
  · next htokens => exact hscalar htokens
  · exact parses_sequence h.next _ ih.flowItems
  · exact parses_mapping h.next _ ih.flowEntries
  · exact Ends.ite (fun _ => parses_sequence h.next _ ih.blockItems) (fun _ => hempty)
  · exact Ends.ite (fun _ => parses_mapping h.next _ ih.blockEntries) (fun _ => hempty)
  · exact hempty

theorem step_blockItems (ih : Sound handles fuel) (h : r.Ordinary) :
    Parses (fun ns => ∀ n ∈ ns, n.Ordinary) (readBlockItems handles (fuel + 1) r) := by
  unfold readBlockItems
  split
  · exact parses_cons (ih.orNull h.next) ih.blockItems
  · exact .ok ⟨List.forall_mem_nil _, h.next⟩
  · exact h.ends_refuse

theorem step_indentless (ih : Sound handles fuel) (h : r.Ordinary) :
    Parses (fun ns => ∀ n ∈ ns, n.Ordinary) (readIndentless handles (fuel + 1) r) := by
  unfold readIndentless
  split
  · exact parses_cons (ih.orNull h.next) ih.indentless
  · exact .ok ⟨List.forall_mem_nil _, h⟩

theorem step_blockEntries (ih : Sound handles fuel) (h : r.Ordinary) :
    Parses (fun es => ∀ e ∈ es, e.1.Ordinary ∧ e.2.Ordinary)
      (readBlockEntries handles (fuel + 1) r) := by
  unfold readBlockEntries
  split
  · exact parses_entry (ih.orNull h.next) ih.blockValue ih.blockEntries
  · exact .ok ⟨List.forall_mem_nil _, h.next⟩
  · exact h.ends_refuse

theorem step_flowItems (ih : Sound handles fuel) (h : r.Ordinary) {first : Bool} :
    Parses (fun ns => ∀ n ∈ ns, n.Ordinary) (readFlowItems handles (fuel + 1) first r) := by
  unfold readFlowItems
  split
  · exact .ok ⟨List.forall_mem_nil _, h.next⟩
  · exact .ok ⟨List.forall_mem_nil _, h.next.next⟩
  · exact ih.flowItem h.next
  · exact ih.flowItem h
  · exact h.ends_refuse

theorem step_flowItem (ih : Sound handles fuel) (h : r.Ordinary) :
    Parses (fun ns => ∀ n ∈ ns, n.Ordinary) (readFlowItem handles (fuel + 1) r) := by
  unfold readFlowItem
  split
  · refine (ih.single h.next).bind ?_
    rintro ⟨entry, r⟩ ⟨⟨hk, hv⟩, hr⟩
    refine (ih.flowItems hr).bind ?_
    rintro ⟨items, r⟩ ⟨hitems, hr⟩
    -- a key among the items stands for a mapping of one entry
    have hmapping : (mapping none .mapping [entry]).Ordinary :=
      .mapping (List.forall_mem_singleton.mpr hk) (List.forall_mem_singleton.mpr hv)
    exact .ok ⟨List.forall_mem_cons.mpr ⟨hmapping, hitems⟩, hr⟩
  · exact parses_cons (ih.read h) ih.flowItems

theorem step_single (ih : Sound handles fuel) (h : r.Ordinary) :
    Parses (fun e => e.1.Ordinary ∧ e.2.Ordinary) (readSingle handles (fuel + 1) r) := by
  unfold readSingle
  refine (ih.orNull h).bind ?_
  rintro ⟨k, r⟩ ⟨hk, hr⟩
  refine (ih.flowValue hr).bind ?_
  rintro ⟨v, r⟩ ⟨hv, hr⟩
  exact .ok ⟨⟨hk, hv⟩, hr⟩

theorem step_flowEntries (ih : Sound handles fuel) (h : r.Ordinary) {first : Bool} :
    Parses (fun es => ∀ e ∈ es, e.1.Ordinary ∧ e.2.Ordinary)
      (readFlowEntries handles (fuel + 1) first r) := by
  unfold readFlowEntries
  split
  · exact .ok ⟨List.forall_mem_nil _, h.next⟩
  · exact .ok ⟨List.forall_mem_nil _, h.next.next⟩
  · exact ih.flowEntry h.next
  · exact ih.flowEntry h
  · exact h.ends_refuse

theorem step_flowEntry (ih : Sound handles fuel) (h : r.Ordinary) :
    Parses (fun es => ∀ e ∈ es, e.1.Ordinary ∧ e.2.Ordinary)
      (readFlowEntry handles (fuel + 1) r) := by
  unfold readFlowEntry
  split
  · exact parses_entry (ih.orNull h.next) ih.flowValue ih.flowEntries
  · -- a key that is not marked has no value of its own
    have hnull {r : Reader} (hr : r.Ordinary) : Parses Ordinary (.ok (null, r)) :=
      .ok ⟨ordinary_null, hr⟩
    exact parses_entry (ih.read h) hnull ih.flowEntries

end Sound

theorem sound_zero (handles : List (Text × Text)) : Sound handles 0 := by
  constructor
  all_goals
    intros
    simp only [Node.read, readContent, readOrNull, readBlockItems, readIndentless,
      readBlockEntries, readBlockValue, readFlowItems, readFlowItem, readSingle, readFlowValue,
      readFlowEntries, readFlowEntry]
    exact ends_invalid

theorem sound_succ {handles : List (Text × Text)} {fuel : Nat} (ih : Sound handles fuel) :
    Sound handles (fuel + 1) where
  read h := ih.step_read h
  content h hprops := ih.step_content h hprops
  orNull h := by
    unfold readOrNull
    exact Ends.ite (fun _ => .ok ⟨ordinary_null, h⟩) (fun _ => ih.read h)
  blockItems h := ih.step_blockItems h
  indentless h := ih.step_indentless h
  blockEntries h := ih.step_blockEntries h
  blockValue h := by
    unfold readBlockValue
    split
    · exact ih.orNull h.next
    · exact .ok ⟨ordinary_null, h⟩
  flowItems h := ih.step_flowItems h
  flowItem h := ih.step_flowItem h
  single h := ih.step_single h
  flowValue h := by
    unfold readFlowValue
    split
    · exact ih.orNull h.next
    · exact .ok ⟨ordinary_null, h⟩
  flowEntries h := ih.step_flowEntries h
  flowEntry h := ih.step_flowEntry h

theorem sound (handles : List (Text × Text)) (fuel : Nat) : Sound handles fuel := by
  induction fuel with
  | zero => exact sound_zero handles
  | succ fuel ih => exact sound_succ ih

end Node

/-! ## Documents -/

namespace Document

/-- A part of the tokens from some place on, and whatever is known besides. -/
abbrev Leaves {α : Type} : Except Fault (α × List Token) → Prop :=
  Ends Fault.Ordinary fun p => ∀ t ∈ p.2, t.Ordinary

theorem leaves_directives (versioned : Bool) (known : List (Text × Text)) {ts : List Token}
    (h : ∀ t ∈ ts, t.Ordinary) : Leaves (directives versioned known ts) := by
  fun_induction directives versioned known ts with
  | case1 => exact ends_invalid
  | case2 versioned known rest major minor _ ih =>
      exact ih fun t ht => h t (List.mem_cons_of_mem _ ht)
  | case3 => exact ends_invalid
  | case4 versioned known rest handle start _ ih =>
      exact ih fun t ht => h t (List.mem_cons_of_mem _ ht)
  | case5 versioned known rest ih => exact ih fun t ht => h t (List.mem_cons_of_mem _ ht)
  | case6 => exact .ok h

theorem leaves_opening {ts : List Token} (h : ∀ t ∈ ts, t.Ordinary) : Leaves (opening ts) := by
  refine (leaves_directives false [] h).bind ?_
  rintro ⟨known, ts⟩ hts
  simp only
  split
  · exact .ok fun t ht => hts t (List.mem_cons_of_mem _ ht)
  · exact .error (hts (.fault _) List.mem_cons_self)
  · exact ends_invalid

theorem ends_atEnd {ts : List Token} (h : ∀ t ∈ ts, t.Ordinary) :
    Ends Fault.Ordinary (fun _ => True) (atEnd ts) := by
  fun_induction atEnd ts with
  | case1 rest ih => exact ih fun t ht => h t (List.mem_cons_of_mem _ ht)
  | case2 => exact .ok trivial
  | case3 ts _ _ f hopening => exact .error ((leaves_opening h).of_error hopening)
  | case4 => exact ends_invalid

theorem ends_whole (known : List (Text × Text)) {ts : List Token}
    (h : ∀ t ∈ ts, t.Ordinary) :
    Ends Fault.Ordinary (fun n => ∀ m ∈ n, m.Ordinary) (whole known ts) := by
  have hreader : Node.Reader.Ordinary ⟨ts, []⟩ := h
  refine ((Node.sound known _).read hreader).bind ?_
  rintro ⟨n, r⟩ ⟨hn, hr⟩
  refine (ends_atEnd hr).bind fun _ _ => .ok ?_
  simpa using hn

theorem ends_node {ts : List Token} (h : ∀ t ∈ ts, t.Ordinary) :
    Ends Fault.Ordinary (fun n => ∀ m ∈ n, m.Ordinary) (node ts) := by
  unfold node
  split
  · exact .ok nofun
  · refine Ends.ite (fun _ => ?_) (fun _ => ends_whole standardHandles h)
    refine (leaves_opening h).bind ?_
    rintro ⟨known, ts⟩ hts
    refine Ends.ite (fun _ => ?_) (fun _ => ends_whole known hts)
    refine (ends_atEnd hts).bind fun _ _ => .ok ?_
    simpa using Node.ordinary_null

end Document

end NameCatalog.Yaml
