import NameCatalog.Files.Lookup
import NameCatalog.Settings.Basic
import NameCatalog.Yaml.Stack

/-!
# Hosts

What a run finds around it, and what is not for it to decide: the files, the room on the stack, the
order in which sets are gone through, what the libraries that read YAML and settings add to their
messages, and which characters the output takes.
-/

namespace NameCatalog

/-- A stream that texts are written to, each as a whole or not at all. It takes some characters,
those of ASCII among them; `refusal` is what is said of a text with any other. -/
structure Stream where
  takes : CodePoint → Bool
  takes_ascii : ∀ c : CodePoint, c.toNat < 128 → takes c = true
  refusal : Text → Text

namespace Stream

def Takes (stream : Stream) (s : Text) : Prop := ∀ c ∈ s.toList, stream.takes c = true

instance (stream : Stream) (s : Text) : Decidable (stream.Takes s) :=
  inferInstanceAs (Decidable (∀ c ∈ s.toList, stream.takes c = true))

@[simp] theorem takes_append {stream : Stream} {s t : Text} :
    stream.Takes (s ++ t) ↔ stream.Takes s ∧ stream.Takes t := by
  simp [Takes, or_imp, forall_and]

theorem takes_of_ascii (stream : Stream) {s : Text} (h : ∀ c ∈ s.toList, c.toNat < 128) :
    stream.Takes s := fun c hc => stream.takes_ascii c (h c hc)

/-- The surrogates that break a text off are told by their places. -/
def surrogatesRefused (s : Text) : Text :=
  let before := s.toList.takeWhile (!·.isSurrogate)
  let found := (s.toList.drop before.length).takeWhile (·.isSurrogate)
  let place := match found with
    | [c] => "character '" ++ Text.ofList (Text.escapeCode c.toNat) ++ "' in position " ++
        toString before.length
    | cs => "characters in position " ++ toString before.length ++ "-" ++
        toString (before.length + cs.length - 1)
  "'utf-8' codec can't encode " ++ place ++ ": surrogates not allowed"

theorem not_isSurrogate_of_ascii (c : CodePoint) (h : c.toNat < 128) :
    (!c.isSurrogate) = true := by
  cases c with
  | char c => rfl
  | surrogate n =>
      have hlow : CodePoint.firstSurrogate + n.val < 128 := h
      simp only [CodePoint.firstSurrogate] at hlow
      omega

/-- A stream of UTF-8, which has no surrogates. -/
def utf8 : Stream where
  takes c := !c.isSurrogate
  takes_ascii := not_isSurrogate_of_ascii
  refusal := surrogatesRefused

end Stream

/-- Of the files of a command the configured ones are loaded a call further down, so that less room
is left for them: `stack` is for these, and for all loads that a caller asks for, `furtherStack` for
the files that the command names. A set has its elements in an order of the host's own. -/
structure Host where
  found : Path → Found
  stack : Yaml.Stack
  furtherStack : Yaml.Stack
  setOrder : List Value → List Value
  setOrder_perm : ∀ vs, (setOrder vs).Perm vs
  yamlDetail : List CodePoint → Text
  settingDetail : SettingFault → Text
  output : Stream

namespace Host

/-- A host with ample room, which adds nothing to messages and keeps the elements of sets as they
come. -/
def plain (found : Path → Found) : Host where
  found := found
  stack := .ample
  furtherStack := .ample
  setOrder := id
  setOrder_perm := .refl
  yamlDetail _ := ""
  settingDetail _ := ""
  output := .utf8

def empty : Host := plain fun _ => .missing

/-- Nothing but the listed paths is there; the first entry of a path counts. -/
def ofList (entries : List (Path × Found)) : Host :=
  plain fun path => (entries.lookup path).getD .missing

/-- The host as loads of further files find it. -/
def further (host : Host) : Host := { host with stack := host.furtherStack }

@[simp] theorem found_further (host : Host) : host.further.found = host.found := rfl

end Host

end NameCatalog
