import Mathlib.Data.List.Chain
import Mathlib.Data.List.DropRight
import ScriptLint.Text.Title

/-!
# The shape of titles

A title is made of a name in four steps: the path is dropped, then one leading `Check`, then a space
is put before each capital, and at last the blanks at both ends are trimmed. Each step could undo
what another one did. Here it is shown what holds in the end, whatever the name is: no blank stands
at either end, there is no `::`, and a capital that is not the first character stands right behind a
space. Nothing else holds of all titles: a text of this shape is the title of some name.

Such facts are about neighbouring characters, so they are stated as chains. The parts that are
dropped and trimmed stand at the ends, and leave a chain a chain. Only the spaces come between, and
whatever may stand next to a space is not disturbed by them.

## Main definitions

* `NoPath`: neighbours that are not `::`
* `TitleShaped`: the texts that have the shape of a title

## Main results

* `isChain_lastSegment`: no `::` is left behind the last one
* `isChain_spaced`: what holds of neighbours once the spaces are there
* `exists_spaced_eq`: when a text has all its spaces, they can be taken away
* `titleShaped_title`, `TitleShaped.exists_ne_title_eq`: the titles are the texts of their shape
-/

namespace ScriptLint.Text

/-- Two characters that are not `::`. -/
def NoPath (a b : Char) : Prop :=
  ¬ (a = ':' ∧ b = ':')

instance : DecidableRel NoPath :=
  fun a b => inferInstanceAs (Decidable (¬ (a = ':' ∧ b = ':')))

/-- A text with the shape of a title: a capital that is not the first character follows a space,
there is no `::`, and there is no blank at either end. -/
structure TitleShaped (cs : List Char) : Prop where
  capitals : cs.IsChain fun a b => b.isUpper = true → a = ' '
  no_path : cs.IsChain NoPath
  start : ∀ c ∈ cs.head?, isBlank c = false
  ending : ∀ c ∈ cs.getLast?, isBlank c = false

/-! ## Dropping the path -/

/-- **What follows the last `::`** has none in it. -/
theorem isChain_lastSegment (cs : List Char) : (lastSegment cs).IsChain NoPath := by
  induction cs with
  | nil => exact .nil
  | cons c rest ih =>
    unfold lastSegment at ih ⊢
    unfold afterLastPath
    cases hrest : afterLastPath rest with
    | some tail =>
      rw [hrest] at ih
      exact ih
    | none =>
      -- there is no path in the rest, so only one that starts here is left
      rw [hrest] at ih
      simp only [Option.getD_none, Option.none_or] at ih ⊢
      split
      · exact ih.tail
      · next hnot =>
        refine List.isChain_cons.mpr ⟨?_, ih⟩
        rintro d hd ⟨rfl, rfl⟩
        obtain ⟨tail, rfl⟩ := List.head?_eq_some_iff.mp hd
        exact hnot tail rfl rfl

/-- A text without `::` has no path. -/
theorem afterLastPath_eq_none {cs : List Char} (h : cs.IsChain NoPath) :
    afterLastPath cs = none := by
  induction cs with
  | nil => rfl
  | cons c rest ih =>
    obtain ⟨hnext, hrest⟩ := List.isChain_cons.mp h
    unfold afterLastPath
    rw [ih hrest]
    simp only [Option.none_or]
    split
    · exact absurd ⟨rfl, rfl⟩ (hnext ':' rfl)
    · rfl

theorem withoutCheck_suffix (cs : List Char) : withoutCheck cs <:+ cs := by
  unfold withoutCheck
  split
  · next rest => exact ⟨['C', 'h', 'e', 'c', 'k'], rfl⟩
  · exact List.suffix_rfl

/-! ## Spacing -/

theorem spaced_cons (c : Char) (cs : List Char) :
    spaced (c :: cs) = (if c.isUpper then [' ', c] else [c]) ++ spaced cs :=
  List.flatMap_cons

/-- **Neighbours in a spaced text**: a space may follow anything, a capital follows a space, and all
others have the neighbours that they had. -/
theorem isChain_spaced {R : Char → Char → Prop} (hspace : ∀ a, R a ' ')
    (hcapital : ∀ b, b.isUpper = true → R ' ' b) {cs : List Char}
    (h : cs.IsChain fun a b => b.isUpper = false → R a b) : (spaced cs).IsChain R := by
  induction cs with
  | nil => exact .nil
  | cons c rest ih =>
    obtain ⟨hnext, hrest⟩ := List.isChain_cons.mp h
    rw [spaced_cons]
    refine .append ?_ (ih hrest) ?_
    · split
      · next hupper => exact .cons_cons (hcapital c hupper) (.singleton c)
      · exact .singleton c
    · -- the last character is `c` in either case, and what comes next is a space or no capital
      have hlast : (if c.isUpper then [' ', c] else [c]).getLast? = some c := by
        split
        · rfl
        · rfl
      rw [hlast]
      rintro _ ⟨⟩ b hb
      cases rest with
      | nil => cases hb
      | cons d tail =>
        rw [spaced_cons] at hb
        by_cases hupper : d.isUpper = true
        · rw [if_pos hupper] at hb
          obtain rfl : ' ' = b := Option.some.inj hb
          exact hspace c
        · rw [if_neg hupper] at hb
          obtain rfl : d = b := Option.some.inj hb
          exact hnext d rfl (Bool.eq_false_iff.mpr hupper)

/-- The other way round: neighbours in a text are neighbours in the spaced text, unless the second
is a capital. -/
theorem isChain_of_isChain_spaced {R : Char → Char → Prop} {cs : List Char}
    (h : (spaced cs).IsChain R) : cs.IsChain fun a b => b.isUpper = false → R a b := by
  induction cs with
  | nil => exact .nil
  | cons c rest ih =>
    rw [spaced_cons] at h
    obtain ⟨-, hrest, hnext⟩ := List.isChain_append.mp h
    refine List.isChain_cons.mpr ⟨?_, ih hrest⟩
    intro d hd hlower
    obtain ⟨tail, rfl⟩ := List.head?_eq_some_iff.mp hd
    refine hnext c ?_ d ?_
    · split
      · rfl
      · rfl
    · rw [spaced_cons, hlower]
      rfl

/-- **Spacing can be undone** where each capital but the first character follows a space. -/
theorem exists_spaced_eq {cs : List Char}
    (h : cs.IsChain fun a b => b.isUpper = true → a = ' ') :
    ∃ ds, spaced ds = cs ∨ ((∃ c ∈ cs.head?, c.isUpper = true) ∧ spaced ds = ' ' :: cs) := by
  induction cs with
  | nil => exact ⟨[], .inl rfl⟩
  | cons c rest ih =>
    obtain ⟨hnext, hrest⟩ := List.isChain_cons.mp h
    obtain ⟨ds, heq | ⟨⟨d, hd, hupper⟩, heq⟩⟩ := ih hrest
    · by_cases hupper : c.isUpper = true
      · refine ⟨c :: ds, .inr ⟨⟨c, rfl, hupper⟩, ?_⟩⟩
        rw [spaced_cons, if_pos hupper, heq]
        rfl
      · refine ⟨c :: ds, .inl ?_⟩
        rw [spaced_cons, if_neg hupper, heq]
        rfl
    · -- `c` is the space that was put before the capital
      obtain rfl := hnext d hd hupper
      exact ⟨ds, .inl heq⟩

/-! ## Trimming -/

/-- The first character that is left once a kind of characters is dropped is of another kind. -/
theorem not_of_mem_head?_dropWhile {p : Char → Bool} {cs : List Char} {c : Char}
    (h : c ∈ (cs.dropWhile p).head?) : p c = false := by
  have hnot := List.head?_dropWhile_not p cs
  rw [Option.mem_def.mp h] at hnot
  exact hnot

theorem trim_eq (cs : List Char) : trim cs = (cs.dropWhile isBlank).rdropWhile isBlank := rfl

theorem trim_infix (cs : List Char) : trim cs <:+: cs := by
  rw [trim_eq]
  exact (List.rdropWhile_prefix _ _).isInfix.trans (List.dropWhile_suffix _).isInfix

theorem isBlank_of_mem_head?_trim {cs : List Char} {c : Char} (h : c ∈ (trim cs).head?) :
    isBlank c = false := by
  -- what is cut off at the end leaves the first character where it is
  obtain ⟨tail, htail⟩ := List.rdropWhile_prefix isBlank (cs.dropWhile isBlank)
  have hhead : c ∈ (cs.dropWhile isBlank).head? := by
    rw [← htail, List.head?_append, ← trim_eq, Option.mem_def.mp h]
    rfl
  exact not_of_mem_head?_dropWhile hhead

theorem isBlank_of_mem_getLast?_trim {cs : List Char} {c : Char} (h : c ∈ (trim cs).getLast?) :
    isBlank c = false := by
  rw [trim, List.getLast?_reverse] at h
  exact not_of_mem_head?_dropWhile h

theorem trim_eq_self {cs : List Char} (hstart : ∀ c ∈ cs.head?, isBlank c = false)
    (hending : ∀ c ∈ cs.getLast?, isBlank c = false) : trim cs = cs := by
  have hdrop : cs.dropWhile isBlank = cs := by
    cases cs with
    | nil => rfl
    | cons c rest => exact List.dropWhile_cons_of_neg (by simp [hstart c rfl])
  rw [trim_eq, hdrop, List.rdropWhile_eq_self_iff]
  intro hne
  rw [hending _ (List.getLast?_eq_some_getLast hne)]
  exact Bool.false_ne_true

/-! ## Titles -/

/-- **Every title has the shape of a title**, whatever the name is. -/
theorem titleShaped_title (name : String) : TitleShaped (title name).toList := by
  have hstem : (stem name).IsChain NoPath :=
    (isChain_lastSegment _).suffix (withoutCheck_suffix _)
  have hinfix := trim_infix (spaced (stem name))
  rw [title, String.toList_ofList]
  constructor
  · refine List.IsChain.infix (isChain_spaced ?_ ?_ ?_) hinfix
    · intro a hspace
      exact absurd hspace (by decide)
    · intro b _ _
      rfl
    · refine List.IsChain.imp ?_ hstem
      intro a b _ hlower hupper
      rw [hlower] at hupper
      cases hupper
  · refine List.IsChain.infix (isChain_spaced ?_ ?_ ?_) hinfix
    · rintro a ⟨-, hcolon⟩
      exact absurd hcolon (by decide)
    · rintro b - ⟨hcolon, -⟩
      exact absurd hcolon (by decide)
    · refine List.IsChain.imp ?_ hstem
      intro a b hpath _
      exact hpath
  · exact fun c => isBlank_of_mem_head?_trim
  · exact fun c => isBlank_of_mem_getLast?_trim

/-- A text with the shape of a title is the spaced and trimmed form of a text without a path. -/
theorem TitleShaped.exists_stem {cs : List Char} (h : TitleShaped cs) :
    ∃ ds, ds.IsChain NoPath ∧ trim (spaced ds) = cs := by
  have htrim := trim_eq_self h.start h.ending
  obtain ⟨ds, hds⟩ := exists_spaced_eq h.capitals
  -- before a capital at the start there is one more space, which is trimmed
  have hchain : (spaced ds).IsChain NoPath := by
    rcases hds with heq | ⟨-, heq⟩
    · rw [heq]
      exact h.no_path
    · rw [heq]
      refine List.isChain_cons.mpr ⟨?_, h.no_path⟩
      rintro b - ⟨hcolon, -⟩
      exact absurd hcolon (by decide)
  refine ⟨ds, ?_, ?_⟩
  · refine List.IsChain.imp ?_ (isChain_of_isChain_spaced hchain)
    rintro a b hpath ⟨rfl, rfl⟩
    exact hpath rfl ⟨rfl, rfl⟩
  · rcases hds with heq | ⟨-, heq⟩
    · rw [heq, htrim]
    · rw [heq, trim_eq, List.dropWhile_cons_of_pos (by decide), ← trim_eq, htrim]

/-- **A text with the shape of a title is one**, and that of a name other than itself. -/
theorem TitleShaped.exists_ne_title_eq {name : String} (h : TitleShaped name.toList) :
    ∃ other, other ≠ name ∧ title other = name := by
  obtain ⟨ds, hpath, htrim⟩ := h.exists_stem
  -- with a path and a `Check` before it, a name differs from its title
  let segment := [':', 'C', 'h', 'e', 'c', 'k'] ++ ds
  have hsegment : segment.IsChain NoPath := by
    refine .append (by decide) hpath ?_
    rintro _ ⟨⟩ b - ⟨hcolon, -⟩
    exact absurd hcolon (by decide)
  refine ⟨String.ofList (':' :: segment), ?_, ?_⟩
  · rintro rfl
    have hcolons := h.no_path
    rw [String.toList_ofList] at hcolons
    exact (List.isChain_cons_cons.mp hcolons).1 ⟨rfl, rfl⟩
  · rw [title, stem, String.toList_ofList, lastSegment]
    unfold afterLastPath
    rw [afterLastPath_eq_none hsegment]
    show String.ofList (trim (spaced ds)) = name
    rw [htrim, String.ofList_toList]

end ScriptLint.Text
