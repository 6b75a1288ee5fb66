import NameCatalog.Proofs.Document.LayoutTokens
import NameCatalog.Proofs.Document.Writing
import NameCatalog.Proofs.Yaml.Blocks

/-!
# Loading files in the plain layout

Such a file is read as the document that has an entry for each of its packages, in order.
-/

namespace NameCatalog

open Yaml (Block Token)

namespace LayoutEntry

def nameBlock (n : QuotableName) : Block := .text n.text

def listBlock : List QuotableName → Block
  | [] => .noItems
  | n :: names => .sequence ((n :: names).map nameBlock)

def block (e : LayoutEntry) : Block :=
  .mapping [("package", nameBlock e.package), ("names", listBlock e.names)]

def fileBlock (es : List LayoutEntry) : Block :=
  .mapping [("packages", .sequence (es.map block))]

theorem within_listBlock (names : List QuotableName) (depth : Nat) :
    Block.Within (depth + 1) (listBlock names) := by
  cases names with
  | nil => exact .noItems depth
  | cons n names =>
      refine .sequence ?_
      intro b hb
      obtain ⟨m, -, rfl⟩ := List.mem_map.mp hb
      exact .text depth m.text

theorem within_block (e : LayoutEntry) (depth : Nat) : Block.Within (depth + 2) e.block := by
  have hwords : ∀ w ∈ (["package", "names"] : List Text), Yaml.Tag.ofPlain w = .text := by
    decide
  have hdistinct : (["package", "names"] : List Text).Nodup := by
    decide
  refine .mapping hwords hdistinct ?_
  rw [List.forall_mem_cons, List.forall_mem_singleton]
  exact ⟨.text _ _, within_listBlock e.names depth⟩

theorem within_fileBlock (es : List LayoutEntry) (depth : Nat) :
    Block.Within (depth + 4) (fileBlock es) := by
  have hwords : ∀ w ∈ (["packages"] : List Text), Yaml.Tag.ofPlain w = .text := by
    decide
  refine .mapping hwords (List.nodup_singleton _) ?_
  rw [List.forall_mem_singleton]
  refine .sequence ?_
  intro b hb
  obtain ⟨e, -, rfl⟩ := List.mem_map.mp hb
  exact within_block e depth

/-! ## Tokens -/

theorem itemTokens_names (names : List QuotableName) :
    Block.itemTokens (names.map nameBlock) = names.flatMap nameTokens := by
  rw [Block.itemTokens, List.flatMap_map]
  rfl

theorem tokens_listBlock (names : List QuotableName) :
    (listBlock names).tokens ++ [.blockEnd] = listTokens names ++ closers names := by
  cases names with
  | nil => rfl
  | cons n names =>
      rw [listBlock, Block.sequence, itemTokens_names, List.cons_append, List.append_assoc]
      rfl

theorem tokens_block (e : LayoutEntry) :
    .blockEntry :: e.block.tokens = e.tokens ++ closers e.names := by
  rw [tokens, List.append_assoc, ← tokens_listBlock, block, Block.mapping]
  simp [Block.entryTokens, nameBlock, Block.text]

theorem tokens_fileBlock (es : List LayoutEntry) :
    (fileBlock es).tokens ++ [.streamEnd] = fileTokens es := by
  have hitems : Block.itemTokens (es.map block) =
      es.flatMap fun e => e.tokens ++ closers e.names := by
    rw [Block.itemTokens, List.flatMap_map]
    exact List.flatMap_congr fun e _ => tokens_block e
  rw [fileBlock, Block.mapping, fileTokens, ← hitems]
  simp [Block.entryTokens, Block.sequence]

/-! ## Values -/

/-- The entry as a stretch of identifiers. -/
def stretch (e : LayoutEntry) : Stretch :=
  .run ⟨e.package.segments⟩ (e.names.map QuotableName.segments)

theorem value_listBlock (names : List QuotableName) :
    (listBlock names).value = .list (names.map fun n => .text n.text) := by
  cases names with
  | nil => rfl
  | cons n names =>
      rw [listBlock, Block.sequence, List.map_map]
      rfl

theorem value_block (e : LayoutEntry) : e.block.value = e.stretch.entry := by
  have hjoined (n : QuotableName) : n.segments.joined dot = n.text :=
    Segments.joined_ofComponents n.isDotted
  have hnames : (e.names.map QuotableName.segments).map (fun g => Value.text (g.joined dot)) =
      e.names.map fun n => .text n.text := by
    rw [List.map_map]
    exact List.map_congr_left fun n _ => congrArg Value.text (hjoined n)
  have hpackage : Package.javaName ⟨e.package.segments⟩ = e.package.text := hjoined e.package
  rw [stretch, Stretch.entry, hnames, hpackage, ← value_listBlock]
  rfl

theorem value_fileBlock (es : List LayoutEntry) :
    (fileBlock es).value = Stretch.document (es.map stretch) := by
  have hentries : (es.map block).map Block.value = (es.map stretch).map Stretch.entry := by
    rw [List.map_map, List.map_map]
    exact List.map_congr_left fun e _ => value_block e
  rw [Stretch.document, ← hentries]
  rfl

theorem flatMap_stretch (es : List LayoutEntry) :
    (es.map stretch).flatMap Stretch.identifiers = es.flatMap identifiers := by
  rw [List.flatMap_map]
  refine List.flatMap_congr fun e _ => ?_
  rw [stretch, Stretch.identifiers, identifiers, List.map_map]
  rfl

/-! ## Loading -/

theorem read_fileLines {es : List LayoutEntry} (h : es ≠ []) (stack : Yaml.Stack) :
    stack.read ((fileLines es).flatMap fun l => l ++ [.char '\n']) =
      .ok (.tree (Stretch.document (es.map stretch))) := by
  have htokens := (ofText_fileLines h).trans (tokens_fileBlock es).symm
  rw [← value_fileBlock]
  exact (within_fileBlock es 0).read (by decide) (Text.all_isAllowed (isLine_fileLines es)) htokens
    stack

theorem arranged_document (es : List LayoutEntry) (order : List Value → List Value) :
    (Stretch.document (es.map stretch)).arranged order = Stretch.document (es.map stretch) := by
  rw [← value_fileBlock]
  exact (within_fileBlock es 0).arranged_value order

end LayoutEntry

namespace Catalog

/-- A file in the plain layout is loaded without a fault, whatever ends its lines, and the catalog
has the names of the entries, each at its first occurrence. -/
theorem load_reads_layout (host : Host) (path : Path) {es : List LayoutEntry}
    {ls : List (List CodePoint × Text.LineEnd)} (hes : es ≠ [])
    (hls : ls.map Prod.fst = LayoutEntry.fileLines es)
    (hfile : host.found path = .file (Text.Utf8.encode (Text.written ls))) :
    ∃ c, (load host path).result = .ok c ∧ c.source = path.toString ∧
      c.names = (es.flatMap LayoutEntry.identifiers).eraseDups := by
  have hlines : ∀ l ∈ ls, Text.IsLine l.1 := by
    intro l hl
    refine LayoutEntry.isLine_fileLines es l.1 ?_
    rw [← hls]
    exact List.mem_map_of_mem hl
  have hdocument : readDocument host path.toString (Text.Utf8.encode (Text.written ls)) =
      .ok (Stretch.document (es.map LayoutEntry.stretch)) := by
    have hdecode := decodeText_written hlines
    rw [hls] at hdecode
    have hread := LayoutEntry.read_fileLines hes host.stack
    refine bind_eq_ok_iff.mpr ⟨_, mapError_eq_ok_iff.mpr hdecode, ?_⟩
    refine bind_eq_ok_iff.mpr ⟨_, mapError_eq_ok_iff.mpr hread, ?_⟩
    exact congrArg Except.ok (LayoutEntry.arranged_document es host.setOrder)
  rw [load, hfile]
  simp only [ofBytes, hdocument, ofDocument_document, LayoutEntry.flatMap_stretch]
  exact ⟨_, rfl, rfl, firsts_eq_eraseDups _⟩

def oddEntries : List LayoutEntry :=
  [⟨⟨"androidx.compose.runtime", by decide, by decide⟩,
      [⟨"Composable", by decide, by decide⟩, ⟨"remember", by decide, by decide⟩,
        ⟨"Composable", by decide, by decide⟩]⟩,
    ⟨⟨"a: [b] # c", by decide, by decide⟩, []⟩]

def oddLines : List (List CodePoint × Text.LineEnd) :=
  (LayoutEntry.fileLines oddEntries).zip
    [.both, .carriage, .feed, .both, .carriage, .feed, .feed, .carriage]

def oddText : List CodePoint :=
  (Text.toList "packages:\r\n  - package: \"androidx.compose.runtime\"\r    names:\n") ++
    (Text.toList "      - \"Composable\"\r\n      - \"remember\"\r      - \"Composable\"\n") ++
    (Text.toList "  - package: \"a: [b] # c\"\n    names: []\r")

/-- A name is repeated, a package has no names but marks in it, and the lines end in all ways. -/
theorem load_reads_layout_odd_entries :
    ∃ c, (load (.plain fun _ => .file (Text.Utf8.encode oddText))
        (Path.ofString "names.yaml")).result = .ok c ∧
      c.names = [Builtin.composable, Builtin.remember] := by
  have hlines : oddLines.map Prod.fst = LayoutEntry.fileLines oddEntries := by
    rfl
  have htext : Text.written oddLines = oddText := by
    decide +kernel
  obtain ⟨c, hc, -, hnames⟩ := load_reads_layout
    (.plain fun _ => .file (Text.Utf8.encode (Text.written oddLines)))
    (Path.ofString "names.yaml") (List.cons_ne_nil _ _) hlines rfl
  rw [htext] at hc
  refine ⟨c, hc, hnames.trans ?_⟩
  decide +kernel

end Catalog

end NameCatalog
