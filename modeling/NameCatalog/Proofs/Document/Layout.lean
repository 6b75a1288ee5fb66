import NameCatalog.Catalog.Load
import NameCatalog.Proofs.Name.Dotted
import NameCatalog.Proofs.Yaml.Lexing

/-!
# Catalog files in the plain layout

A file in the plain layout has one line for each package and each name, with all texts between
double quotes. Its lines may end in any of the three ways, each line in its own; what is read is
always the same text.
-/

namespace NameCatalog

namespace Text

/-- The line ends that a file can have. -/
inductive LineEnd where
  | feed
  | carriage
  | both

def LineEnd.chars : LineEnd → List CodePoint
  | feed => ['\n']
  | carriage => ['\r']
  | both => ['\r', '\n']

def written (ls : List (List CodePoint × LineEnd)) : List CodePoint :=
  ls.flatMap fun l => l.1 ++ l.2.chars

/-- Printable ASCII. -/
def AllPrintable (cs : List CodePoint) : Prop := ∀ c ∈ cs, 0x20 ≤ c.toNat ∧ c.toNat ≤ 0x7e

instance (cs : List CodePoint) : Decidable (AllPrintable cs) :=
  List.decidableBAll (fun c : CodePoint => 0x20 ≤ c.toNat ∧ c.toNat ≤ 0x7e) cs

def IsLine (cs : List CodePoint) : Prop := cs ≠ [] ∧ AllPrintable cs

instance (cs : List CodePoint) : Decidable (IsLine cs) :=
  inferInstanceAs (Decidable (_ ∧ AllPrintable cs))

theorem unifyLineEnds_append {cs : List CodePoint} (h : .char '\r' ∉ cs) (ds : List CodePoint) :
    unifyLineEnds (cs ++ ds) = cs ++ unifyLineEnds ds := by
  induction cs with
  | nil => rfl
  | cons c cs ih =>
      simp only [List.mem_cons, not_or] at h
      rw [List.cons_append, unifyLineEnds_cons (Ne.symm h.1), ih h.2, List.cons_append]

theorem unifyLineEnds_lineEnd (e : LineEnd) {cs : List CodePoint}
    (h : cs.head? ≠ some (.char '\n')) :
    unifyLineEnds (e.chars ++ cs) = .char '\n' :: unifyLineEnds cs := by
  cases e with
  | feed => exact unifyLineEnds_cons (by decide) cs
  | both => simp [LineEnd.chars, unifyLineEnds]
  | carriage =>
      cases cs with
      | nil => simp [LineEnd.chars, unifyLineEnds]
      | cons c cs =>
          have hc : c ≠ '\n' := by simpa using h
          simp [LineEnd.chars, unifyLineEnds, hc]

variable {ls : List (List CodePoint × LineEnd)}

theorem head?_written_ne (h : ∀ l ∈ ls, IsLine l.1) : (written ls).head? ≠ some (.char '\n') := by
  cases ls with
  | nil => simp [written]
  | cons l ls =>
      obtain ⟨hne, hchars⟩ := h l List.mem_cons_self
      obtain ⟨c, cs, hl⟩ := List.exists_cons_of_ne_nil hne
      rw [hl] at hchars
      rintro hhead
      have hc : c = '\n' := by simpa [written, hl] using hhead
      subst hc
      exact absurd (hchars '\n' List.mem_cons_self).1 (by decide)

/-- However the lines end, they are read with line feeds behind them. -/
theorem unifyLineEnds_written (h : ∀ l ∈ ls, IsLine l.1) :
    unifyLineEnds (written ls) = (ls.map Prod.fst).flatMap fun l => l ++ [.char '\n'] := by
  induction ls with
  | nil => simp [written]
  | cons l ls ih =>
      obtain ⟨hl, hls⟩ := List.forall_mem_cons.mp h
      have hreturn : .char '\r' ∉ l.1 := by
        intro hmem
        exact absurd (hl.2 '\r' hmem).1 (by decide)
      have hcons : written (l :: ls) = l.1 ++ (l.2.chars ++ written ls) := by
        simp [written]
      rw [hcons, unifyLineEnds_append hreturn, unifyLineEnds_lineEnd l.2 (head?_written_ne hls),
        ih hls]
      simp

/-! ## ASCII -/

theorem Utf8.decodeFrom_encode {cs : List CodePoint} (h : ∀ c ∈ cs, c.toNat < 0x80)
    (position : Nat) :
    Utf8.decodeFrom position (Utf8.encode cs) = .ok cs := by
  induction cs generalizing position with
  | nil => rfl
  | cons c cs ih =>
      obtain ⟨hc, hcs⟩ := List.forall_mem_cons.mp h
      have hchar : c = .char (.ofNat c.toNat) := by
        rw [← CodePoint.ofNat_of_lt (by omega), CodePoint.ofNat_toNat]
      have hencode : Utf8.encode (c :: cs) = UInt8.ofNat c.toNat :: Utf8.encode cs := by
        cases c with
        | char c =>
            have hc : c.toNat < 0x80 := hc
            simp [Utf8.encode, Utf8.encodeCodePoint, Utf8.encodeChar, hc]
        | surrogate n => cases hchar
      have hvalue : (UInt8.ofNat c.toNat).toNat = c.toNat := by
        rw [UInt8.toNat_ofNat']
        exact Nat.mod_eq_of_lt (Nat.lt_trans hc (by decide))
      have hbyte : UInt8.ofNat c.toNat < 0x80 := by
        rw [UInt8.lt_iff_toNat_lt, hvalue]
        exact hc
      rw [hencode, Utf8.decodeFrom_ascii position hbyte, ih hcs, hvalue, ← hchar]
      rfl

theorem all_isAllowed {ls : List (List CodePoint)} (h : ∀ l ∈ ls, IsLine l) :
    (ls.flatMap fun l => l ++ [.char '\n']).all Yaml.isAllowed = true := by
  rw [List.all_eq_true]
  intro c hc
  obtain ⟨l, hl, hc⟩ := List.mem_flatMap.mp hc
  rcases List.mem_append.mp hc with hline | hend
  · obtain ⟨hlow, hhigh⟩ := (h l hl).2 c hline
    simp [Yaml.isAllowed, hlow, hhigh]
  · rw [List.mem_singleton.mp hend]
    decide

theorem toNat_lt_of_mem_written (h : ∀ l ∈ ls, IsLine l.1) {c : CodePoint} (hc : c ∈ written ls) :
    c.toNat < 0x80 := by
  have hends (e : LineEnd) : ∀ c ∈ e.chars, c.toNat < 0x80 := by
    cases e <;> simp [LineEnd.chars]
  obtain ⟨l, hl, hc⟩ := List.mem_flatMap.mp hc
  rcases List.mem_append.mp hc with hline | hend
  · exact Nat.lt_of_le_of_lt ((h l hl).2 c hline).2 (by decide)
  · exact hends l.2 c hend

end Text

theorem decodeText_written {ls : List (List CodePoint × Text.LineEnd)}
    (h : ∀ l ∈ ls, Text.IsLine l.1) :
    decodeText (Text.Utf8.encode (Text.written ls)) =
      .ok ((ls.map Prod.fst).flatMap fun l => l ++ [.char '\n']) := by
  have hascii : ∀ c ∈ Text.written ls, c.toNat < 0x80 :=
    fun c hc => Text.toNat_lt_of_mem_written h hc
  rw [decodeText, Text.Utf8.decode, Text.Utf8.decodeFrom_encode hascii,
    ← Text.unifyLineEnds_written h]
  rfl

/-! ## The layout -/

/-- A dotted text of printable ASCII that needs no escapes between double quotes. -/
structure QuotableName where
  text : Text
  isDotted : IsDotted text
  isVerbatim : Yaml.AllVerbatim text.toList

def QuotableName.segments (n : QuotableName) : Segments := .ofComponents n.isDotted

/-- A package and its names. -/
structure LayoutEntry where
  package : QuotableName
  names : List QuotableName

namespace LayoutEntry

def identifiers (e : LayoutEntry) : List Identifier :=
  e.names.map fun n => ⟨⟨e.package.segments⟩, n.segments⟩

def quotedLine (start : Text) (n : QuotableName) : List CodePoint :=
  start.toList ++ .char '"' :: (n.text.toList ++ [.char '"'])

def nameLines : List QuotableName → List (List CodePoint)
  | [] => [Text.toList "    names: []"]
  | n :: names => Text.toList "    names:" :: (n :: names).map (quotedLine "      - ")

def lines (e : LayoutEntry) : List (List CodePoint) :=
  quotedLine "  - package: " e.package :: nameLines e.names

/-- The lines of a file with the entries. -/
def fileLines (es : List LayoutEntry) : List (List CodePoint) :=
  Text.toList "packages:" :: es.flatMap lines

theorem isLine_quotedLine {start : Text} (h : Text.IsLine start.toList) (n : QuotableName) :
    Text.IsLine (quotedLine start n) := by
  refine ⟨List.append_ne_nil_of_left_ne_nil h.1 _, ?_⟩
  intro c hc
  rcases List.mem_append.mp hc with hstart | hquoted
  · exact h.2 c hstart
  · rcases List.mem_cons.mp hquoted with rfl | hrest
    · decide
    · rcases List.mem_append.mp hrest with hname | hquote
      · exact ⟨(n.isVerbatim c hname).1, (n.isVerbatim c hname).2.1⟩
      · rw [List.mem_singleton.mp hquote]
        decide

theorem isLine_nameLines (names : List QuotableName) : ∀ l ∈ nameLines names, Text.IsLine l := by
  intro l hl
  cases names with
  | nil =>
      rw [List.mem_singleton.mp hl]
      decide
  | cons n names =>
      rcases List.mem_cons.mp hl with rfl | hl
      · decide
      · obtain ⟨m, -, rfl⟩ := List.mem_map.mp hl
        exact isLine_quotedLine (by decide) m

theorem isLine_fileLines (es : List LayoutEntry) : ∀ l ∈ fileLines es, Text.IsLine l := by
  intro l hl
  rcases List.mem_cons.mp hl with rfl | hl
  · decide
  · obtain ⟨e, -, hl⟩ := List.mem_flatMap.mp hl
    rcases List.mem_cons.mp hl with rfl | hl
    · exact isLine_quotedLine (by decide) e.package
    · exact isLine_nameLines e.names l hl

end LayoutEntry

end NameCatalog
