import PlaneBridge.Proofs.Json.FreeForm
import PlaneBridge.Proofs.Trust.Pem

/-!
# Sections of a text

What the lines of a text are read as does not depend on how they end: `toOption_sections` says that
of a text the same sections are read as of its lines without any ends.  A line end belongs to no
mark, does not count behind the dashes of a line that begins a section, and is whitespace to the
Base64 in between.

On lines, a section is read by itself, `sectionsFrom_section`.  A text that has been read to its
end leaves nothing behind for one that follows it, `sections_append`.
-/

namespace PlaneBridge.Trust.Pem

open Text

/-! ## Line by line -/

/-- What becomes of a section that ends: nothing if its label is not known. -/
def found (label text : List UInt8) : Except Error (List Section) :=
  if label ∈ knownLabels then do return [⟨label, ← (Base64.decode text).mapError .base64⟩]
  else .ok []

theorem found_of_decode {label text content : List UInt8} (hlabel : label ∈ knownLabels)
    (h : Base64.decode text = .ok content) : found label text = .ok [⟨label, content⟩] := by
  rw [found, if_pos hlabel, h]
  rfl

theorem found_of_error {label text : List UInt8} (hlabel : label ∈ knownLabels)
    {error : Base64.Error} (h : Base64.decode text = .error error) :
    found label text = .error (.base64 error) := by
  rw [found, if_pos hlabel, h]
  rfl

theorem found_of_notMem {label : List UInt8} (hlabel : label ∉ knownLabels) (text : List UInt8) :
    found label text = .ok [] :=
  if_neg hlabel

section

variable {opened : Option (List UInt8)} {label text line : List UInt8} {rest : List (List UInt8)}

theorem sectionsFrom_opens (h : Opens line) (hlabel : label? line = some label) :
    sectionsFrom opened text (line :: rest) = sectionsFrom (some label) text rest := by
  rw [sectionsFrom.eq_def]
  simp only [List.isPrefixOf_iff_prefix.mpr h, if_true, hlabel]

theorem sectionsFrom_illegal (h : Opens line) (hlabel : label? line = none) :
    sectionsFrom opened text (line :: rest) = .error (.illegalStart line) := by
  rw [sectionsFrom.eq_def]
  simp only [List.isPrefixOf_iff_prefix.mpr h, if_true, hlabel]

theorem sectionsFrom_outside (h : ¬ Opens line) :
    sectionsFrom none text (line :: rest) = sectionsFrom none text rest := by
  rw [sectionsFrom, if_neg (mt List.isPrefixOf_iff_prefix.mp h)]

theorem sectionsFrom_inside (h : ¬ Opens line) (hend : ¬ Closes label line) :
    sectionsFrom (some label) text (line :: rest) =
      sectionsFrom (some label) (text ++ line) rest := by
  have hends : ends label line = false :=
    Bool.eq_false_iff.mpr (mt List.isPrefixOf_iff_prefix.mp hend)
  rw [sectionsFrom, if_neg (mt List.isPrefixOf_iff_prefix.mp h)]
  simp only [hends, Bool.not_false, if_true]

theorem sectionsFrom_closes (h : ¬ Opens line) (hend : Closes label line) :
    sectionsFrom (some label) text (line :: rest) =
      found label text >>= fun sections => (sections ++ ·) <$> sectionsFrom none [] rest := by
  have hends : ends label line = true := List.isPrefixOf_iff_prefix.mpr hend
  rw [sectionsFrom, if_neg (mt List.isPrefixOf_iff_prefix.mp h), found]
  simp only [hends, Bool.not_true, Bool.false_eq_true, if_false, List.contains_eq_mem,
    decide_eq_true_eq]
  split
  · cases (Base64.decode text).mapError Error.base64 <;> rfl
  · cases sectionsFrom none [] rest <;> rfl

theorem sectionsFrom_body {body : List (List UInt8)} (h : IsBody label body) :
    sectionsFrom (some label) text (body ++ rest) =
      sectionsFrom (some label) (text ++ body.flatten) rest := by
  induction body generalizing text with
  | nil => rw [List.flatten_nil, List.append_nil, List.nil_append]
  | cons line body ih =>
    obtain ⟨hline, hbody⟩ := List.forall_mem_cons.mp h
    rw [List.cons_append, sectionsFrom_inside hline.1 hline.2, ih hbody, List.flatten_cons,
      List.append_assoc]

/-- A section is read by itself, wherever it stands outside others. -/
theorem sectionsFrom_section (hlabel : IsLabel label) {body : List (List UInt8)}
    (hbody : IsBody label body) :
    sectionsFrom none [] (opening label :: (body ++ closing label :: rest)) =
      found label body.flatten >>= fun sections =>
        (sections ++ ·) <$> sectionsFrom none [] rest := by
  rw [sectionsFrom_opens (opens_opening label) (label?_opening hlabel), sectionsFrom_body hbody,
    List.nil_append, sectionsFrom_closes (not_opens_closing label) (closes_closing label)]

/-- A section inside which the text ends lacks its end. -/
theorem sectionsFrom_unended (hlabel : IsLabel label) {body : List (List UInt8)}
    (hbody : IsBody label body) :
    sectionsFrom none [] (opening label :: body) = .error (.missingEnd label) := by
  have h := @sectionsFrom_body label [] [] body hbody
  rw [List.append_nil] at h
  rw [sectionsFrom_opens (opens_opening label) (label?_opening hlabel), h]
  rfl

end

/-! ## How lines end -/

/-- The bytes that are not whitespace. -/
def compact (text : List UInt8) : List UInt8 := text.filter fun b => !Base64.isBlank b

theorem decode_congr {text text' : List UInt8} (h : compact text = compact text') :
    Base64.decode text = Base64.decode text' := by
  rw [Base64.decode, Base64.decode, ← Base64.decodeFrom_filter, ← Base64.decodeFrom_filter [] text']
  exact congrArg _ h

theorem compact_append (text more : List UInt8) :
    compact (text ++ more) = compact text ++ compact more :=
  List.filter_append text more

theorem compact_end {e : List UInt8} (he : IsEnd e) : compact e = [] := by
  refine List.filter_eq_nil_iff.mpr fun b hb => ?_
  have hcases : b = 10 ∨ b = 13 := by simpa [isLineEnd] using he b hb
  rcases hcases with rfl | rfl <;> decide

/-- The same sections are read of these lines as of those, within a section and outside. -/
def Alike (ls ls' : List (List UInt8)) : Prop :=
  ∀ (opened : Option (List UInt8)) (text text' : List UInt8),
    (∀ label, opened = some label → IsLine label) → compact text = compact text' →
      (sectionsFrom opened text ls).toOption = (sectionsFrom opened text' ls').toOption

theorem Alike.nil : Alike [] [] := by
  intro opened text text' _ _
  cases opened <;> rfl

theorem toOption_map {α β : Type} (f : α → β) (x : Except Error α) :
    (f <$> x).toOption = x.toOption.map f := by
  cases x <;> rfl

/-- A line counts for the same whatever end it has. -/
theorem Alike.cons {ls ls' : List (List UInt8)} (h : Alike ls ls') {line e : List UInt8}
    (hline : IsLine line) (he : IsEnd e) : Alike ((line ++ e) :: ls) (line :: ls') := by
  intro opened text text' hopened htext
  by_cases hopens : Opens line
  · have hopens' : Opens (line ++ e) := (prefix_append_iff isLine_begin he line).mpr hopens
    have hlabels : label? (line ++ e) = label? line := label?_append he line
    cases hlabel : label? line with
    | none =>
      rw [sectionsFrom_illegal hopens hlabel,
        sectionsFrom_illegal hopens' (hlabels.trans hlabel)]
      rfl
    | some label =>
      rw [sectionsFrom_opens hopens hlabel, sectionsFrom_opens hopens' (hlabels.trans hlabel)]
      exact h _ _ _ (fun _ heq => Option.some.inj heq ▸ isLine_of_label? hline hlabel) htext
  · have hopens' : ¬ Opens (line ++ e) := mt (prefix_append_iff isLine_begin he line).mp hopens
    cases opened with
    | none =>
      rw [sectionsFrom_outside hopens, sectionsFrom_outside hopens']
      exact h _ _ _ hopened htext
    | some label =>
      have hmark : IsLine (closing label) := (hopened label rfl).closing
      by_cases hend : Closes label line
      · have hend' : Closes label (line ++ e) := (prefix_append_iff hmark he line).mpr hend
        have hfound : found label text = found label text' := by
          rw [found, found, decode_congr htext]
        have hrest := h none [] [] (fun _ heq => nomatch heq) rfl
        rw [sectionsFrom_closes hopens hend, sectionsFrom_closes hopens' hend', hfound]
        cases found label text' with
        | error error => rfl
        | ok sections =>
          show ((sections ++ ·) <$> sectionsFrom none [] ls).toOption =
            ((sections ++ ·) <$> sectionsFrom none [] ls').toOption
          rw [toOption_map, toOption_map, hrest]
      · have hend' : ¬ Closes label (line ++ e) := mt (prefix_append_iff hmark he line).mp hend
        rw [sectionsFrom_inside hopens hend, sectionsFrom_inside hopens' hend']
        refine h _ _ _ hopened ?_
        simp only [compact_append, compact_end he, htext, List.append_nil]

/-- A line that is nothing but an end counts for nothing. -/
theorem Alike.blank {ls ls' : List (List UInt8)} (h : Alike ls ls') {e : List UInt8}
    (he : IsEnd e) : Alike (e :: ls) ls' := by
  intro opened text text' hopened htext
  have hnot : ∀ {mark : List UInt8}, IsLine mark → mark ≠ [] → ¬ mark <+: e := by
    intro mark hmark hne hprefix
    exact hne (List.prefix_nil.mp ((prefix_append_iff hmark he []).mp hprefix))
  have hopens : ¬ Opens e := hnot isLine_begin (by rw [begin_spelled]; exact List.cons_ne_nil _ _)
  cases opened with
  | none =>
    rw [sectionsFrom_outside hopens]
    exact h _ _ _ hopened htext
  | some label =>
    have hend : ¬ Closes label e := by
      refine hnot (hopened label rfl).closing ?_
      rw [end_spelled]
      exact List.cons_ne_nil _ _
    rw [sectionsFrom_inside hopens hend]
    refine h _ _ _ hopened ?_
    rw [compact_append, compact_end he, List.append_nil, htext]

/-- The same sections are read of a text as of its lines. -/
theorem Lined.alike {ls : List (List UInt8)} {text : List UInt8} (h : Lined ls text) :
    Alike (lines text) ls := by
  induction h with
  | nil => exact Alike.nil
  | last hline hne =>
    rw [lines_of_isLine hline hne]
    have h := Alike.nil.cons hline (e := []) (fun b hb => absurd hb List.not_mem_nil)
    rwa [List.append_nil] at h
  | @cons line ls text ending hline _ ih =>
    cases ending with
    | lineFeed =>
      rw [Ending.bytes, List.append_assoc, List.singleton_append, lines_cons hline (by decide)]
      exact ih.cons hline (by decide)
    | carriageReturn =>
      rw [Ending.bytes, List.append_assoc, List.singleton_append, lines_cons hline (by decide)]
      exact ih.cons hline (by decide)
    | both =>
      -- two line ends in a row leave a line between them that has nothing but its end
      have hfeed : lines (10 :: text) = [10] :: lines text := rfl
      rw [Ending.bytes, List.append_assoc, List.cons_append, List.singleton_append,
        lines_cons hline (by decide), hfeed]
      exact (ih.blank (e := [10]) (by decide)).cons hline (by decide)

theorem toOption_sections {ls : List (List UInt8)} {text : List UInt8} (h : Lined ls text) :
    (sections text).toOption = (sectionsFrom none [] ls).toOption :=
  h.alike none [] [] (fun _ heq => nomatch heq) rfl

/-! ## Texts put together -/

/-- Lines that have been read to their end leave nothing behind. -/
theorem sectionsFrom_append {ls : List (List UInt8)} {opened : Option (List UInt8)}
    {text : List UInt8} (hopened : opened = none → text = []) {read : List Section}
    (h : sectionsFrom opened text ls = .ok read) (more : List (List UInt8)) :
    sectionsFrom opened text (ls ++ more) = (read ++ ·) <$> sectionsFrom none [] more := by
  induction ls generalizing opened text read with
  | nil =>
    cases opened with
    | some label => cases h
    | none =>
      cases h
      rw [hopened rfl, List.nil_append]
      cases sectionsFrom none [] more <;> rfl
  | cons line ls ih =>
    rw [List.cons_append]
    by_cases hopens : Opens line
    · cases hlabel : label? line with
      | none =>
        rw [sectionsFrom_illegal hopens hlabel] at h
        cases h
      | some label =>
        rw [sectionsFrom_opens hopens hlabel] at h ⊢
        exact @ih (some label) _ (fun heq => nomatch heq) _ h
    · cases opened with
      | none =>
        rw [sectionsFrom_outside hopens] at h ⊢
        exact ih hopened h
      | some label =>
        by_cases hend : Closes label line
        · rw [sectionsFrom_closes hopens hend] at h ⊢
          obtain ⟨sections, hsections, h⟩ := Json.exists_of_bind_eq_ok h
          obtain ⟨others, hothers, rfl⟩ := Json.exists_of_map_eq_ok h
          have hrest := @ih none [] (fun _ => rfl) _ hothers
          rw [hsections, hrest]
          show (sections ++ ·) <$> (others ++ ·) <$> sectionsFrom none [] more = _
          cases sectionsFrom none [] more with
          | error error => rfl
          | ok last => exact congrArg Except.ok (List.append_assoc sections others last).symm
        · rw [sectionsFrom_inside hopens hend] at h ⊢
          exact @ih (some label) _ (fun heq => nomatch heq) _ h

theorem sections_append {text : List UInt8} (hends : Terminated text) {read : List Section}
    (h : sections text = .ok read) (rest : List UInt8) :
    sections (text ++ rest) = (read ++ ·) <$> sections rest := by
  rw [sections, lines_append hends]
  exact sectionsFrom_append (fun _ => rfl) h (lines rest)

end PlaneBridge.Trust.Pem
