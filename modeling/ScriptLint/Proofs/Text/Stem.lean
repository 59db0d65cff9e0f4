import ScriptLint.Proofs.Text.Title

/-!
# What a title loses

Of a name without blanks, a title loses the path and one leading `Check`, and nothing else. Spaces
are only put in before capitals, and trimming only takes away such a space; so the rest of the name
is what the title says once its spaces are deleted. Two names without blanks have one title exactly
if the same is left of them.

What is left of a name is stated by rules of its own. The last `::` of a name may share a colon with
the one before it, as in `a:::b`: it is the last one if no other starts behind its first colon.

## Main definitions

* `PathDropped`, `CheckDropped`: what is left without the path, and without one leading `Check`
* `Remains`: what is left of a name without both
* `Unbroken`: a name without blanks

## Main results

* `remains_iff`: the stem of a name is what is left of it
* `filter_title`: a title without its spaces is the stem
* `title_loses_only_path_and_check`: the shape of titles, and what they tell of a name
-/

namespace ScriptLint.Text

/-- What is left of a name once everything up to and including the last `::` is dropped. -/
inductive PathDropped (name : List Char) : List Char → Prop
  /-- There is no `::` in the name. -/
  | whole (h : name.IsChain NoPath) : PathDropped name name
  /-- No `::` starts behind the first colon of this one. -/
  | last {path rest : List Char} (hname : name = path ++ ':' :: ':' :: rest)
      (h : (':' :: rest).IsChain NoPath) : PathDropped name rest

/-- What is left of a segment once one leading `Check` is dropped. -/
inductive CheckDropped (segment : List Char) : List Char → Prop
  /-- The segment does not start with `Check`. -/
  | whole (h : ¬ "Check".toList <+: segment) : CheckDropped segment segment
  /-- The rest may start with `Check` again. -/
  | leading {rest : List Char} (hsegment : segment = "Check".toList ++ rest) :
      CheckDropped segment rest

/-- What is left of a name without its path and without one leading `Check`. -/
def Remains (name rest : List Char) : Prop :=
  ∃ segment, PathDropped name segment ∧ CheckDropped segment rest

/-- A name without blanks. -/
def Unbroken (name : String) : Prop :=
  ∀ c ∈ name.toList, isBlank c = false

instance (name : String) : Decidable (Unbroken name) :=
  decidable_of_iff (name.toList.all (!isBlank ·) = true) (by simp [Unbroken])

/-! ## The stem is what is left -/

/-- What is found behind the last `::` is what follows it. -/
theorem afterLastPath_append {rest : List Char} (h : (':' :: rest).IsChain NoPath)
    (path : List Char) : afterLastPath (path ++ ':' :: ':' :: rest) = some rest := by
  induction path with
  | nil =>
    rw [List.nil_append, afterLastPath, afterLastPath_eq_none h]
    rfl
  | cons c path ih =>
    rw [List.cons_append]
    unfold afterLastPath
    rw [ih, Option.some_or]

theorem isChain_of_afterLastPath_eq_none {cs : List Char} (h : afterLastPath cs = none) :
    cs.IsChain NoPath := by
  have hchain := isChain_lastSegment cs
  rwa [lastSegment, h, Option.getD_none] at hchain

theorem exists_path_of_afterLastPath {cs rest : List Char} (h : afterLastPath cs = some rest) :
    ∃ path, cs = path ++ ':' :: ':' :: rest ∧ (':' :: rest).IsChain NoPath := by
  induction cs with
  | nil => cases h
  | cons c tail ih =>
    unfold afterLastPath at h
    cases htail : afterLastPath tail with
    | some found =>
      rw [htail] at h
      obtain rfl : found = rest := Option.some.inj h
      obtain ⟨path, rfl, hchain⟩ := ih htail
      exact ⟨c :: path, rfl, hchain⟩
    | none =>
      -- the only `::` left is the one that starts here
      rw [htail, Option.none_or] at h
      split at h
      · obtain rfl := Option.some.inj h
        exact ⟨[], rfl, isChain_of_afterLastPath_eq_none htail⟩
      · cases h

theorem pathDropped_iff {name segment : List Char} :
    PathDropped name segment ↔ segment = lastSegment name := by
  constructor
  · rintro (h | ⟨rfl, h⟩)
    · rw [lastSegment, afterLastPath_eq_none h, Option.getD_none]
    · rw [lastSegment, afterLastPath_append h, Option.getD_some]
  · rintro rfl
    unfold lastSegment
    cases hafter : afterLastPath name with
    | none => exact .whole (isChain_of_afterLastPath_eq_none hafter)
    | some rest =>
      obtain ⟨path, hname, hchain⟩ := exists_path_of_afterLastPath hafter
      exact .last hname hchain

theorem withoutCheck_eq_self {segment : List Char} (h : ¬ "Check".toList <+: segment) :
    withoutCheck segment = segment := by
  unfold withoutCheck
  split
  · next rest => exact absurd ⟨rest, rfl⟩ h
  · rfl

theorem checkDropped_iff {segment rest : List Char} :
    CheckDropped segment rest ↔ rest = withoutCheck segment := by
  constructor
  · rintro (h | ⟨rfl⟩)
    · exact (withoutCheck_eq_self h).symm
    · rfl
  · rintro rfl
    by_cases h : "Check".toList <+: segment
    · obtain ⟨rest, rfl⟩ := h
      exact .leading rfl
    · rw [withoutCheck_eq_self h]
      exact .whole h

/-- **The stem of a name is what is left of it** without its path and one leading `Check`. -/
theorem remains_iff {name : String} {rest : List Char} :
    Remains name.toList rest ↔ rest = stem name := by
  simp only [Remains, pathDropped_iff, checkDropped_iff, exists_eq_left, stem]

theorem PathDropped.suffix {name segment : List Char} (h : PathDropped name segment) :
    segment <:+ name := by
  cases h with
  | whole h => exact List.suffix_rfl
  | @last path _ hname h =>
    rw [hname]
    exact ⟨path ++ [':', ':'], by simp⟩

theorem stem_suffix (name : String) : stem name <:+ name.toList :=
  (withoutCheck_suffix _).trans (pathDropped_iff.mpr rfl).suffix

/-! ## Deleting the spaces -/

theorem mem_spaced {c : Char} {cs : List Char} (h : c ∈ spaced cs) : c = ' ' ∨ c ∈ cs := by
  obtain ⟨d, hd, hc⟩ := List.mem_flatMap.mp h
  split at hc
  · rcases List.mem_cons.mp hc with rfl | hc
    · exact .inl rfl
    · exact .inr (List.mem_singleton.mp hc ▸ hd)
  · exact .inr (List.mem_singleton.mp hc ▸ hd)

/-- Without its spaces, a spaced text is what it was, if it had none. -/
theorem filter_spaced {cs : List Char} (h : ' ' ∉ cs) : (spaced cs).filter (· ≠ ' ') = cs := by
  induction cs with
  | nil => rfl
  | cons c rest ih =>
    rw [List.mem_cons, not_or] at h
    obtain ⟨hc, hrest⟩ := h
    have hfirst : (if c.isUpper then [' ', c] else [c]).filter (· ≠ ' ') = [c] := by
      split
      · simp [Ne.symm hc]
      · simp [Ne.symm hc]
    rw [spaced_cons, List.filter_append, hfirst, ih hrest]
    rfl

/-- Characters that are dropped from the start are not missed if they are filtered out anyway. -/
theorem filter_dropWhile {p q : Char → Bool} {cs : List Char}
    (h : ∀ c ∈ cs, p c = true → q c = false) : (cs.dropWhile p).filter q = cs.filter q := by
  have hdropped : (cs.takeWhile p).filter q = [] := by
    refine List.filter_eq_nil_iff.mpr fun c hc => ?_
    rw [h c ((List.takeWhile_prefix p).subset hc) (List.mem_takeWhile_imp hc)]
    exact Bool.false_ne_true
  calc (cs.dropWhile p).filter q
      = (cs.takeWhile p).filter q ++ (cs.dropWhile p).filter q := by rw [hdropped, List.nil_append]
    _ = cs.filter q := by rw [← List.filter_append, List.takeWhile_append_dropWhile]

/-- Where the only blanks are spaces, trimming takes away nothing but spaces. -/
theorem filter_trim {cs : List Char} (h : ∀ c ∈ cs, isBlank c = true → c = ' ') :
    (trim cs).filter (· ≠ ' ') = cs.filter (· ≠ ' ') := by
  have hspaces : ∀ c ∈ cs, isBlank c = true → decide (c ≠ ' ') = false := by
    intro c hc hblank
    simp [h c hc hblank]
  have hkept : ∀ c ∈ (cs.dropWhile isBlank).reverse, c ∈ cs := by
    intro c hc
    exact (List.dropWhile_suffix isBlank).subset (List.mem_reverse.mp hc)
  rw [trim, List.filter_reverse, filter_dropWhile fun c hc => hspaces c (hkept c hc),
    List.filter_reverse, List.reverse_reverse, filter_dropWhile hspaces]

/-- **A title without its spaces is the stem** of the name, if the name has no blanks. -/
theorem filter_title {name : String} (h : Unbroken name) :
    (title name).toList.filter (· ≠ ' ') = stem name := by
  have hstem : ∀ c ∈ stem name, isBlank c = false :=
    fun c hc => h c ((stem_suffix name).subset hc)
  rw [title, String.toList_ofList, filter_trim, filter_spaced]
  · intro hspace
    exact absurd (hstem ' ' hspace) (by decide)
  · intro c hc hblank
    rcases mem_spaced hc with hspace | hc
    · exact hspace
    · rw [hstem c hc] at hblank
      cases hblank

/-- **A title loses nothing but the path and one `Check`.** Every title has the shape of a title. Of
names without blanks, two have one title exactly if the same is left of them without the path and
one leading `Check`, and this is what the title says without its spaces. -/
theorem title_loses_only_path_and_check :
    (∀ name : String, TitleShaped (title name).toList) ∧
    (∀ (name : String) (rest : List Char), Remains name.toList rest ↔ rest = stem name) ∧
    ∀ a b : String, Unbroken a → Unbroken b →
      (title a = title b ↔ stem a = stem b) ∧
        (title a).toList.filter (· ≠ ' ') = stem a := by
  refine ⟨titleShaped_title, fun _ _ => remains_iff, ?_⟩
  intro a b ha hb
  refine ⟨⟨?_, ?_⟩, filter_title ha⟩
  · intro htitle
    rw [← filter_title ha, ← filter_title hb, htitle]
  · intro hstem
    rw [title, title, hstem]

/-- Three names without blanks, of which the first two have one title and the third another. -/
theorem titles_of_socketLeak :
    title "net::CheckSocketLeak" = title "SocketLeak" ∧
      title "CheckCheckSocketLeak" ≠ title "SocketLeak" ∧
      (title "CheckCheckSocketLeak").toList.filter (· ≠ ' ') = "CheckSocketLeak".toList := by
  obtain ⟨-, -, hnames⟩ := title_loses_only_path_and_check
  have hpath : Unbroken "net::CheckSocketLeak" := by decide +kernel
  have htwice : Unbroken "CheckCheckSocketLeak" := by decide +kernel
  have hplain : Unbroken "SocketLeak" := by decide +kernel
  refine ⟨(hnames _ _ hpath hplain).1.mpr (by decide), ?_, (hnames _ _ htwice hplain).2⟩
  intro htitle
  exact absurd ((hnames _ _ htwice hplain).1.mp htitle) (by decide)

end ScriptLint.Text
