import ScriptLint.Text.Quoted

/-!
# Taking joined texts apart

Texts are joined by a comma and a space. The joined text is taken apart again by splitting it at
each comma that a space follows. This gives back the texts that were joined, whatever spaces are in
them, if there is at least one text and none of them has a comma: then a separator can only start
where one was put. Without any text the joined text is empty, and would be taken for one empty text.

Splitting goes through the joined text from its start. It is followed here part by part: up to the
end of a text no separator starts, and there the separator is found that was put behind it.

## Main definitions

* `commaParts`: what stands between the separators of a text

## Main results

* `not_matchesAt_of_not_mem`: no separator starts within a text that has no comma
* `commaParts_commaSeparated`: the parts of joined texts are the texts
-/

namespace ScriptLint.Text

open String.Slice.Pattern.Model

/-- What stands between the separators of a text, each a comma and a space. -/
def commaParts (text : String) : List String :=
  (text.split ", ").toList.map String.Slice.copy

instance strictSeparator : StrictPatternModel ", " :=
  ForwardStringSearcher.strictPatternModel (by decide)

instance lawfulSeparator : LawfulToForwardSearcherModel ", " :=
  ForwardStringSearcher.lawfulToForwardSearcherModel (by decide)

/-- One more text goes before the others, with a separator between. -/
theorem commaSeparated_cons_cons (text next : String) (rest : List String) :
    commaSeparated (text :: next :: rest) =
      text ++ (", " ++ commaSeparated (next :: rest)) := by
  rw [commaSeparated, String.intercalate_cons_cons, String.append_assoc]
  rfl

section Positions

/-! ## One text within a longer one

A text stands in a longer one from `start` to `stop`, with `before` in front of it and `after`
behind it. -/

variable {whole : String.Slice} {start stop : whole.Pos} {before text after : String}

/-- **No separator starts within a text that has no comma**, not even one that ends behind it. -/
theorem not_matchesAt_of_not_mem (hstart : start.Splits before (text ++ after))
    (hstop : stop.Splits (before ++ text) after) (hcomma : ',' ∉ text.toList) {pos : whole.Pos}
    (hle : start ≤ pos) (hlt : pos < stop) : ¬ MatchesAt ", " pos := by
  intro hmatch
  obtain ⟨left, right, hpos⟩ := ForwardStringSearcher.matchesAt_iff_splits.mp hmatch
  obtain ⟨passed, rfl, -⟩ := (hstart.le_iff_exists_eq_append hpos).mp hle
  obtain ⟨ahead, hne, hleft, hright⟩ := (hpos.lt_iff_exists_eq_append hstop).mp hlt
  have htext : text = passed ++ ahead := by
    rwa [String.append_assoc, String.append_right_inj] at hleft
  -- something of the text is still ahead, and it starts as the separator does
  have hahead : ',' ∈ ahead.toList := by
    have hchars := congrArg String.toList hright
    cases hcs : ahead.toList with
    | nil => exact absurd (String.toList_eq_nil_iff.mp hcs) hne
    | cons c cs =>
      rw [String.toList_append, String.toList_append, hcs] at hchars
      obtain rfl : ',' = c := (List.cons.inj hchars).1
      exact List.mem_cons_self
  apply hcomma
  rw [htext, String.toList_append]
  exact List.mem_append_right _ hahead

theorem copy_subslice_of_splits (hstart : start.Splits before (text ++ after))
    (hstop : stop.Splits (before ++ text) after) (hle : start ≤ stop) :
    (whole.subslice start stop hle).toSlice.copy = text := by
  obtain ⟨_, hcopy⟩ :=
    String.Slice.copy_slice_eq_iff_splits.mpr ⟨before, after, hstart, hstop⟩
  simpa using hcopy

/-- **From the start of joined texts on**, splitting finds these texts, one after the other. -/
theorem map_copy_split_of_splits {texts : List String} (hne : texts ≠ [])
    (hcommas : ∀ text ∈ texts, ',' ∉ text.toList)
    (hstart : start.Splits before (commaSeparated texts)) :
    (String.Slice.Pattern.Model.split ", " start start (Std.le_refl start)).map
      (·.toSlice.copy) = texts := by
  induction texts generalizing start before with
  | nil => exact absurd rfl hne
  | cons text rest ih =>
    have hcomma := hcommas text List.mem_cons_self
    cases rest with
    | nil =>
      -- the last text reaches to the end
      have hlast : start.Splits before (text ++ "") := by simpa [commaSeparated] using hstart
      have hend : whole.endPos.Splits (before ++ text) "" := by
        have hstop := hlast.splits_rotateRight
        rwa [(String.Slice.Pos.splits_empty_right_iff.mp hstop).1] at hstop
      rw [split_eq_of_not_matchesAt whole.endPos (String.Slice.Pos.le_endPos start)
          fun pos => not_matchesAt_of_not_mem hlast hend hcomma,
        split_endPos, List.map_singleton, copy_subslice_of_splits hlast hend]
    | cons next rest =>
      rw [commaSeparated_cons_cons] at hstart
      have hstop := hstart.splits_rotateRight
      have hresume := hstop.splits_rotateRight
      have hle : start ≤ hstart.rotateRight :=
        (hstart.le_iff_exists_eq_append hstop).mpr ⟨text, rfl, rfl⟩
      have hfound : IsLongestMatchAt ", " hstart.rotateRight hstop.rotateRight :=
        ForwardStringSearcher.isLongestMatchAt_iff_splits.mpr ⟨_, _, hstop, hresume⟩
      have hrest := ih (List.cons_ne_nil next rest)
        (fun text hmem => hcommas text (List.mem_cons_of_mem _ hmem)) hresume
      rw [split_eq_of_not_matchesAt hstart.rotateRight hle
          fun pos => not_matchesAt_of_not_mem hstart hstop hcomma,
        split_eq_of_isLongestMatchAt hfound, List.map_cons,
        copy_subslice_of_splits hstart hstop, hrest]

end Positions

/-- **The parts of joined texts are the texts**, if there is one and none has a comma. -/
theorem commaParts_commaSeparated {texts : List String} (hne : texts ≠ [])
    (hcommas : ∀ text ∈ texts, ',' ∉ text.toList) :
    commaParts (commaSeparated texts) = texts := by
  have hstart := (commaSeparated texts).toSlice.splits_startPos
  rw [String.copy_toSlice] at hstart
  rw [commaParts, String.split_eq_split_toSlice, String.Slice.toList_split_eq_splitToSubslice,
    String.Slice.Pattern.toList_splitToSubslice_eq_modelSplit, List.map_map]
  exact map_copy_split_of_splits hne hcommas hstart

end ScriptLint.Text
