import ResourceKinds.Selector
import ResourceKinds.Proofs.Texts

namespace ResourceKinds

namespace Text

/-- The text is the pattern with each star replaced by characters that a star may stand for, and every other character
left as it is. -/
inductive Fills (wild : Char → Prop) : List Char → List Char → Prop
  | nil : Fills wild [] []
  | star {run pattern text} (each : ∀ c ∈ run, wild c) (rest : Fills wild pattern text) :
      Fills wild ('*' :: pattern) (run ++ text)
  | plain {c pattern text} (noStar : c ≠ '*') (rest : Fills wild pattern text) :
      Fills wild (c :: pattern) (c :: text)

namespace Fills

variable {wild : Char → Prop} {c : Char} {pattern text : List Char}

theorem nil_iff : Fills wild [] text ↔ text = [] := by
  constructor
  · rintro ⟨⟩
    rfl
  · rintro rfl
    exact .nil

theorem star_iff : Fills wild ('*' :: pattern) text ↔
    ∃ run rest, text = run ++ rest ∧ (∀ c ∈ run, wild c) ∧ Fills wild pattern rest := by
  constructor
  · intro fills
    cases fills with
    | star each rest => exact ⟨_, _, rfl, each, rest⟩
    | plain noStar rest => exact absurd rfl noStar
  · rintro ⟨run, rest, rfl, each, fills⟩
    exact .star each fills

theorem star_nil_iff : Fills wild ('*' :: pattern) [] ↔ Fills wild pattern [] := by
  rw [star_iff]
  constructor
  · rintro ⟨run, rest, whole, _, fills⟩
    obtain ⟨-, rfl⟩ := List.append_eq_nil_iff.mp whole.symm
    exact fills
  · intro fills
    exact ⟨[], [], rfl, nofun, fills⟩

/-- A star stands for nothing, or for one character and whatever it stands for after that. -/
theorem star_cons_iff : Fills wild ('*' :: pattern) (c :: text) ↔
    Fills wild pattern (c :: text) ∨ wild c ∧ Fills wild ('*' :: pattern) text := by
  constructor
  · intro fills
    obtain ⟨run, rest, whole, each, filled⟩ := star_iff.mp fills
    cases run with
    | nil => exact .inl (whole ▸ filled)
    | cons first run =>
      rw [List.cons_append] at whole
      obtain ⟨rfl, rfl⟩ := List.cons.inj whole
      obtain ⟨here, later⟩ := List.forall_mem_cons.mp each
      exact .inr ⟨here, .star later filled⟩
  · rintro (fills | ⟨here, fills⟩)
    · exact star_iff.mpr ⟨[], _, rfl, nofun, fills⟩
    · obtain ⟨run, rest, rfl, each, fills⟩ := star_iff.mp fills
      exact star_iff.mpr ⟨c :: run, rest, rfl, List.forall_mem_cons.mpr ⟨here, each⟩, fills⟩

theorem plain_iff (noStar : c ≠ '*') :
    Fills wild (c :: pattern) text ↔ ∃ rest, text = c :: rest ∧ Fills wild pattern rest := by
  constructor
  · intro fills
    cases fills with
    | star each rest => exact absurd rfl noStar
    | plain _ rest => exact ⟨_, rfl, rest⟩
  · rintro ⟨rest, rfl, fills⟩
    exact .plain noStar fills

/-- A star alone is filled by all that a star may stand for. -/
theorem star_alone_iff : Fills wild ['*'] text ↔ ∀ c ∈ text, wild c := by
  rw [star_iff]
  constructor
  · rintro ⟨run, rest, rfl, each, fills⟩
    obtain rfl := nil_iff.mp fills
    rwa [List.append_nil]
  · intro each
    exact ⟨text, [], (List.append_nil text).symm, each, .nil⟩

/-- What a star may stand for matters for the characters of the text only. -/
theorem mono {other : Char → Prop} (weaker : ∀ c ∈ text, wild c → other c) (fills : Fills wild pattern text) :
    Fills other pattern text := by
  induction fills with
  | nil => exact .nil
  | star each _ ih =>
    obtain ⟨inRun, inRest⟩ := List.forall_mem_append.mp weaker
    exact .star (fun c inside => inRun c inside (each c inside)) (ih inRest)
  | plain noStar _ ih => exact .plain noStar (ih (List.forall_mem_cons.mp weaker).2)

end Fills

theorem globMatches_iff {pattern text : List Char} :
    globMatches pattern text = true ↔ Fills (· ≠ '\n') pattern text := by
  fun_induction globMatches pattern text with
  | case1 text => rw [Fills.nil_iff, List.isEmpty_iff]
  | case2 pattern ih => rw [ih, Fills.star_nil_iff]
  | case3 pattern c rest skips stays =>
    rw [Bool.or_eq_true, Bool.and_eq_true, decide_eq_true_eq, skips, stays, Fills.star_cons_iff]
  | case4 p pattern noStar => simp [Fills.plain_iff noStar]
  | case5 p pattern noStar c rest ih =>
    rw [Bool.and_eq_true, decide_eq_true_eq, ih, Fills.plain_iff noStar]
    constructor
    · rintro ⟨rfl, fills⟩
      exact ⟨rest, rfl, fills⟩
    · rintro ⟨other, same, fills⟩
      obtain ⟨rfl, rfl⟩ := List.cons.inj same
      exact ⟨rfl, fills⟩

end Text

open Text (Fills IsPiece Trims)

namespace KindPattern

/-- The pattern selects the kind. Without a slash it is a pattern for the name of the kind; otherwise what stands before
the last slash is one for its group, and what stands after it is one for its name. -/
inductive Selects (wild : Char → Prop) (kind : KindDefinition) : List Char → Prop
  | named {name} (noSlash : '/' ∉ name) (fits : Fills wild name kind.kind.toList) : Selects wild kind name
  | grouped {group name} (noSlash : '/' ∉ name) (inGroup : Fills wild group kind.group.toList)
      (fits : Fills wild name kind.kind.toList) : Selects wild kind (group ++ '/' :: name)

variable {wild : Char → Prop} {kind : KindDefinition} {pattern group name : List Char}

theorem selects_named_iff (noSlash : '/' ∉ name) : Selects wild kind name ↔ Fills wild name kind.kind.toList := by
  constructor
  · intro selects
    cases selects with
    | named _ fits => exact fits
    | grouped => exact absurd (List.mem_append_right _ (List.mem_cons_self ..)) noSlash
  · exact .named noSlash

theorem selects_grouped_iff (noSlash : '/' ∉ name) : Selects wild kind (group ++ '/' :: name) ↔
    Fills wild group kind.group.toList ∧ Fills wild name kind.kind.toList := by
  constructor
  · intro selects
    generalize whole : group ++ '/' :: name = pattern at selects
    cases selects with
    | named slashless => exact absurd (whole ▸ List.mem_append_right _ (List.mem_cons_self ..)) slashless
    | @grouped otherGroup otherName slashless inGroup fits =>
      have cuts := Text.cutLastChars?_append otherGroup slashless
      rw [← whole, Text.cutLastChars?_append group noSlash] at cuts
      obtain ⟨rfl, rfl⟩ := Prod.mk.inj (Option.some.inj cuts)
      exact ⟨inGroup, fits⟩
  · rintro ⟨inGroup, fits⟩
    exact .grouped noSlash inGroup fits

theorem accepts_iff {group : Option String} {name : String} : (KindPattern.mk group name).accepts kind = true ↔
    (∀ inGroup, group = some inGroup → Fills (· ≠ '\n') inGroup.toList kind.group.toList) ∧
      Fills (· ≠ '\n') name.toList kind.kind.toList := by
  cases group <;> simp [accepts, Text.matchesGlob, Text.globMatches_iff, and_comm]

theorem accepts_ofText_iff {pattern : String} :
    (ofText pattern).accepts kind = true ↔ Selects (· ≠ '\n') kind pattern.toList := by
  cases cuts : Text.cutLastChars? '/' pattern.toList with
  | none =>
    have noSlash := Text.cutLastChars?_eq_none.mp cuts
    have read : ofText pattern = ⟨none, pattern⟩ := by rw [ofText, Text.cutLast?, cuts, Option.map_none]
    rw [read, accepts_iff, selects_named_iff noSlash]
    simp
  | some parts =>
    obtain ⟨group, name⟩ := parts
    obtain ⟨whole, noSlash⟩ := Text.eq_append_of_cutLastChars? cuts
    have read : ofText pattern = ⟨some (String.ofList group), String.ofList name⟩ := by
      rw [ofText, Text.cutLast?, cuts, Option.map_some]
    rw [read, accepts_iff, whole, selects_grouped_iff noSlash]
    simp

theorem Selects.mono {other : Char → Prop} (inName : ∀ c ∈ kind.kind.toList, wild c → other c)
    (inGroup : ∀ c ∈ kind.group.toList, wild c → other c) (selects : Selects wild kind pattern) :
    Selects other kind pattern := by
  cases selects with
  | named noSlash fits => exact .named noSlash (fits.mono inName)
  | grouped noSlash ofGroup fits => exact .grouped noSlash (ofGroup.mono inGroup) (fits.mono inName)

end KindPattern

namespace KindSelector

variable {wild : Char → Prop} {text : String} {kind : KindDefinition} {pattern : List Char}

/-- The patterns that a text lists: the parts between its commas without the white space around them, unless nothing is
left of them. -/
structure Lists (text : String) (pattern : List Char) : Prop where
  nonempty : pattern ≠ []
  isPart : ∃ part, IsPiece ',' text.toList part ∧ Trims part pattern

/-- The text selects the kind: it lists no pattern, or one that does. -/
def Selects (wild : Char → Prop) (text : String) (kind : KindDefinition) : Prop :=
  (∀ pattern, ¬ Lists text pattern) ∨ ∃ pattern, Lists text pattern ∧ KindPattern.Selects wild kind pattern

theorem lists_iff : Lists text pattern ↔
    pattern ∈ ((Text.splitChars ',' text.toList).map Text.trimChars).filter (!·.isEmpty) := by
  simp only [List.mem_filter, List.mem_map, Text.mem_splitChars_iff, ← Text.trims_iff, Bool.not_eq_true',
    List.isEmpty_eq_false_iff]
  exact ⟨fun lists => ⟨lists.isPart, lists.nonempty⟩, fun both => ⟨both.2, both.1⟩⟩

theorem patterns_eq (text : String) : (ofText text).patterns =
    ((((Text.splitChars ',' text.toList).map Text.trimChars).filter (!·.isEmpty)).map String.ofList).map .ofText := by
  have trimmed : (Text.split ',' text).map Text.trim =
      ((Text.splitChars ',' text.toList).map Text.trimChars).map String.ofList := by
    simp [Text.split, Text.trim, Function.comp_def]
  have kept : (fun part : String => decide (part ≠ "")) = fun part => !part.isEmpty := by
    funext part
    rw [Bool.eq_iff_iff]
    simp
  rw [ofText, trimmed, kept, Text.filter_ofList]

/-- A selector accepts the kinds that its text selects with stars that do not stand for line breaks. -/
theorem accepts_iff : (ofText text).accepts kind = true ↔ Selects (· ≠ '\n') text kind := by
  have each (pattern : List Char) : (KindPattern.ofText (String.ofList pattern)).accepts kind = true ↔
      KindPattern.Selects (· ≠ '\n') kind pattern := by
    rw [KindPattern.accepts_ofText_iff, String.toList_ofList]
  rw [accepts, patterns_eq, List.map_map, List.any_map, List.isEmpty_map, Bool.or_eq_true, List.isEmpty_iff,
    List.eq_nil_iff_forall_not_mem, List.any_eq_true]
  simp only [← lists_iff, Function.comp_apply, each, Selects]

theorem Selects.mono {other : Char → Prop} (inName : ∀ c ∈ kind.kind.toList, wild c → other c)
    (inGroup : ∀ c ∈ kind.group.toList, wild c → other c) (selects : Selects wild text kind) :
    Selects other text kind := by
  rcases selects with nothing | ⟨pattern, listed, selects⟩
  · exact .inl nothing
  · exact .inr ⟨pattern, listed, selects.mono inName inGroup⟩

theorem selects_single_iff
    (single : ((Text.splitChars ',' text.toList).map Text.trimChars).filter (!·.isEmpty) = [pattern]) :
    Selects wild text kind ↔ KindPattern.Selects wild kind pattern := by
  have listed (other : List Char) : Lists text other ↔ other = pattern := by
    rw [lists_iff, single, List.mem_singleton]
  simp [Selects, listed]

theorem selects_star_iff : Selects wild "*" kind ↔ ∀ c ∈ kind.kind.toList, wild c := by
  have single : ((Text.splitChars ',' "*".toList).map Text.trimChars).filter (!·.isEmpty) = [['*']] := by decide
  rw [selects_single_iff single, KindPattern.selects_named_iff (by decide), Fills.star_alone_iff]

theorem selects_stars_iff : Selects wild "*/*" kind ↔
    (∀ c ∈ kind.group.toList, wild c) ∧ ∀ c ∈ kind.kind.toList, wild c := by
  have single :
      ((Text.splitChars ',' "*/*".toList).map Text.trimChars).filter (!·.isEmpty) = [['*'] ++ '/' :: ['*']] := by decide
  rw [selects_single_iff single, KindPattern.selects_grouped_iff (by decide), Fills.star_alone_iff,
    Fills.star_alone_iff]

/-- A selector goes by its patterns, in which a star stands for any characters but line breaks. For a kind whose name
and group have no line breaks it may as well stand for any characters at all, and for no other kind. -/
theorem accepts_stars_iff (kind : KindDefinition) :
    (∀ text, (ofText text).accepts kind = true ↔ Selects (· ≠ '\n') text kind) ∧
      ((∀ text, (ofText text).accepts kind = true ↔ Selects (fun _ => True) text kind) ↔
        '\n' ∉ kind.kind.toList ∧ '\n' ∉ kind.group.toList) := by
  refine ⟨fun text => accepts_iff, fun agree => ?_, fun ⟨nameInLine, groupInLine⟩ text => ?_⟩
  · have all : Selects (fun _ => True) "*/*" kind := selects_stars_iff.mpr ⟨fun _ _ => trivial, fun _ _ => trivial⟩
    obtain ⟨inGroup, inName⟩ := selects_stars_iff.mp (accepts_iff.mp ((agree "*/*").mpr all))
    exact ⟨fun broken => inName _ broken rfl, fun broken => inGroup _ broken rfl⟩
  · rw [accepts_iff]
    constructor
    · exact Selects.mono (fun _ _ _ => trivial) fun _ _ _ => trivial
    · refine Selects.mono (fun c inside _ => ?_) fun c inside _ => ?_
      · rintro rfl
        exact nameInLine inside
      · rintro rfl
        exact groupInLine inside

/-- A kind whose name goes over two lines. -/
def tornDesk : KindDefinition := ⟨"desks.dev", "Desk\nLamp", .namespaced, "", "", [], none⟩

/-- The star alone, which is to select every kind, does not select it. -/
theorem star_misses_tornDesk : Selects (fun _ => True) "*" tornDesk ∧ (ofText "*").accepts tornDesk = false := by
  refine ⟨selects_star_iff.mpr fun _ _ => trivial, ?_⟩
  rw [Bool.eq_false_iff, ne_eq, accepts_iff, selects_star_iff]
  intro inLine
  exact inLine '\n' (by decide) rfl

end KindSelector

end ResourceKinds
