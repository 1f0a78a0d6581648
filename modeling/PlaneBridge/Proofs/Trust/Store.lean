import PlaneBridge.Proofs.Trust.Sections
import PlaneBridge.Trust.Store

/-!
# What a truststore trusts

`Bundle` says which lines are a bundle of certificates and of which: certificates in padded Base64
over any number of lines, and in whatever order between them well-formed sections of other labels
and lines that begin no section.  `parse_bundle` says that a truststore trusts exactly the bundle:
all of its certificates or, once one of them cannot be read, none.
-/

namespace PlaneBridge.Trust

open Pem

/-! ## Bundles -/

/-- The bytes of ASCII characters. -/
def ascii (piece : List Char) : List UInt8 := piece.map Char.toUInt8

/-- These lines are a bundle of these certificates. -/
inductive Bundle : List (List UInt8) → List Certificate → Prop
  | nil : Bundle [] []
  /-- A line outside sections. -/
  | commentary {line : List UInt8} {rest : List (List UInt8)} {certificates : List Certificate}
      (hline : ¬ Opens line) (h : Bundle rest certificates) : Bundle (line :: rest) certificates
  /-- A certificate whose Base64 is broken into lines. -/
  | certificate {pieces : List (List Char)} {certificate : Certificate}
      {rest : List (List UInt8)} {certificates : List Certificate}
      (hpieces : Text.Base64.Carries pieces.flatten certificate) (h : Bundle rest certificates) :
      Bundle
        (opening Pem.certificate :: (pieces.map ascii ++ closing Pem.certificate :: rest))
        (certificate :: certificates)
  /-- A section of another label, which is Base64 where sections of this label are decoded. -/
  | other {label : List UInt8} {body rest : List (List UInt8)} {certificates : List Certificate}
      (hlabel : IsLabel label) (hother : label ≠ Pem.certificate) (hbody : IsBody label body)
      (hbase64 : label ∈ knownLabels → Text.Base64.IsReadable body.flatten)
      (h : Bundle rest certificates) :
      Bundle (opening label :: (body ++ closing label :: rest)) certificates

/-- The contents of those sections that are certificates. -/
def certificatesOf (sections : List Section) : List Certificate :=
  (sections.filter (·.label = Pem.certificate)).map (·.content)

theorem certificatesOf_append (sections more : List Section) :
    certificatesOf (sections ++ more) = certificatesOf sections ++ certificatesOf more := by
  rw [certificatesOf, List.filter_append, List.map_append]
  rfl

theorem certificate_mem_knownLabels : Pem.certificate ∈ knownLabels := List.mem_cons_self

/-- Base64 neither begins nor ends a section. -/
theorem isBody_of_carries {pieces : List (List Char)} {certificate : Certificate}
    (h : Text.Base64.Carries pieces.flatten certificate) (label : List UInt8) :
    IsBody label (pieces.map ascii) := by
  have hdash : ∀ line ∈ pieces.map ascii, (45 : UInt8) ∉ line := by
    intro line hline hmem
    obtain ⟨piece, hpiece, rfl⟩ := List.mem_map.mp hline
    obtain ⟨c, hc, hcode⟩ := List.mem_map.mp hmem
    have hsymbol := h.isSymbol c (List.mem_flatten_of_mem hpiece hc)
    have hlegible := (Text.Base64.isReadable_of_isSymbol hsymbol).2
    rw [hcode] at hlegible
    exact absurd hlegible (by decide)
  intro line hline
  refine ⟨fun hopens => hdash line hline (hopens.subset ?_),
    fun hcloses => hdash line hline (hcloses.subset ?_)⟩
  · rw [begin_spelled]
    exact List.mem_cons_self
  · rw [end_spelled]
    exact List.mem_cons_self

theorem flatten_ascii (pieces : List (List Char)) :
    (pieces.map ascii).flatten = ascii pieces.flatten := by
  rw [ascii, List.map_flatten]
  rfl

/-- The certificates of a bundle are found in it, and nothing is left open behind it. -/
theorem Bundle.sectionsFrom_append {ls : List (List UInt8)} {certificates : List Certificate}
    (h : Bundle ls certificates) (more : List (List UInt8)) :
    ∃ sections, certificatesOf sections = certificates ∧
      sectionsFrom none [] (ls ++ more) = (sections ++ ·) <$> sectionsFrom none [] more := by
  induction h with
  | nil =>
    refine ⟨[], rfl, ?_⟩
    rw [List.nil_append]
    cases sectionsFrom none [] more <;> rfl
  | commentary hline _ ih =>
    rw [List.cons_append, sectionsFrom_outside hline]
    exact ih
  | @certificate pieces certificate rest certificates hpieces _ ih =>
    obtain ⟨sections, hcertificates, hsections⟩ := ih
    have hdecode : Text.Base64.decode (pieces.map ascii).flatten = .ok certificate := by
      rw [flatten_ascii]
      exact Text.Base64.decode_of_carries hpieces
    refine ⟨⟨Pem.certificate, certificate⟩ :: sections, ?_, ?_⟩
    · rw [certificatesOf, List.filter_cons_of_pos (by simp), List.map_cons, ← hcertificates]
      rfl
    · rw [List.cons_append, List.append_assoc, List.cons_append,
        sectionsFrom_section isLabel_certificate (isBody_of_carries hpieces _), hsections,
        found_of_decode certificate_mem_knownLabels hdecode]
      cases sectionsFrom none [] more <;> rfl
  | @other label body rest certificates hlabel hother hbody hbase64 _ ih =>
    obtain ⟨sections, hcertificates, hsections⟩ := ih
    obtain ⟨first, hnone, hfirst⟩ : ∃ first, certificatesOf first = [] ∧
        found label body.flatten = .ok first := by
      by_cases hknown : label ∈ knownLabels
      · obtain ⟨content, hdecode⟩ := (Text.Base64.exists_decode_iff _).mpr (hbase64 hknown)
        refine ⟨[⟨label, content⟩], ?_, found_of_decode hknown hdecode⟩
        rw [certificatesOf, List.filter_cons_of_neg (by simp [hother])]
        rfl
      · exact ⟨[], rfl, found_of_notMem hknown _⟩
    refine ⟨first ++ sections, ?_, ?_⟩
    · rw [certificatesOf_append, hnone, hcertificates, List.nil_append]
    · rw [List.cons_append, List.append_assoc, List.cons_append,
        sectionsFrom_section hlabel hbody, hsections, hfirst]
      show (first ++ ·) <$> (sections ++ ·) <$> sectionsFrom none [] more = _
      cases sectionsFrom none [] more with
      | error error => rfl
      | ok last => exact congrArg Except.ok (List.append_assoc first sections last).symm

namespace Store

/-! ## Truststores -/

theorem parse_of_sections {text : List UInt8} {sections : List Section}
    (h : Pem.sections text = .ok sections) :
    parse text =
      if certificatesOf sections = [] then .error .empty else .ok (certificatesOf sections) := by
  rw [parse, h, certificatesOf]
  simp only [Except.mapError, bind, Except.bind]
  cases (sections.filter (·.label = Pem.certificate)).map (·.content) with
  | nil => rfl
  | cons certificate certificates =>
    rw [if_neg (List.cons_ne_nil _ _)]
    rfl

theorem exists_sections_of_parse {text : List UInt8} {certificates : List Certificate}
    (h : parse text = .ok certificates) :
    ∃ sections, Pem.sections text = .ok sections ∧ certificatesOf sections = certificates ∧
      certificates ≠ [] := by
  cases hsections : Pem.sections text with
  | error error =>
    rw [parse, hsections] at h
    cases h
  | ok sections =>
    rw [parse_of_sections hsections] at h
    split at h
    · cases h
    · next hne =>
      cases h
      exact ⟨sections, rfl, rfl, hne⟩

/-- Lines that cannot be read to their end make no truststore. -/
theorem exists_error_of_lined {ls : List (List UInt8)} {text : List UInt8} (hlined : Lined ls text)
    {error : Pem.Error} (h : sectionsFrom none [] ls = .error error) :
    ∃ error, parse text = .error (.pem error) := by
  have hnone := toOption_sections hlined
  rw [h] at hnone
  cases hsections : Pem.sections text with
  | ok sections =>
    rw [hsections] at hnone
    cases hnone
  | error error =>
    refine ⟨error, ?_⟩
    rw [parse, hsections]
    rfl

theorem parse_of_lined {ls : List (List UInt8)} {text : List UInt8} (hlined : Lined ls text)
    {certificates : List Certificate} (h : Bundle ls certificates) :
    parse text = if certificates = [] then .error .empty else .ok certificates := by
  obtain ⟨sections, rfl, hsections⟩ := h.sectionsFrom_append []
  rw [List.append_nil] at hsections
  have hsome := toOption_sections hlined
  rw [hsections] at hsome
  cases hread : Pem.sections text with
  | error error =>
    rw [hread] at hsome
    cases hsome
  | ok read =>
    rw [hread] at hsome
    have hsame : read = sections ++ [] := Option.some.inj hsome
    rw [List.append_nil] at hsame
    rw [parse_of_sections hread, hsame]

theorem parse_append {first second : List UInt8} (hends : Terminated first)
    {certificates more : List Certificate} (hfirst : parse first = .ok certificates)
    (hsecond : parse second = .ok more) : parse (first ++ second) = .ok (certificates ++ more) := by
  obtain ⟨sections, hsections, rfl, hne⟩ := exists_sections_of_parse hfirst
  obtain ⟨others, hothers, rfl, -⟩ := exists_sections_of_parse hsecond
  have hboth : Pem.sections (first ++ second) = .ok (sections ++ others) := by
    rw [sections_append hends hsections, hothers]
    rfl
  rw [parse_of_sections hboth, certificatesOf_append, if_neg (by simp [hne])]

/-- A truststore trusts exactly the certificates of its bundle, each of them once and in their
order, and one that has none is refused.  If behind a bundle a certificate follows that is no
Base64, whatever comes behind it, or one that the text ends in, the truststore is refused, however
many certificates the bundle has.  Two truststores of which the first ends in a line end can be put
together. -/
theorem parse_bundle :
    (∀ ls text certificates, Lined ls text → Bundle ls certificates → certificates ≠ [] →
      parse text = .ok certificates) ∧
    (∀ ls text, Lined ls text → Bundle ls [] → parse text = .error .empty) ∧
    Error.empty.message = "No certificates found in PEM data" ∧
    (∀ ls certificates body rest text, Bundle ls certificates →
      IsBody Pem.certificate body → ¬ Text.Base64.IsReadable body.flatten →
      Lined (ls ++ (opening Pem.certificate :: (body ++ closing Pem.certificate :: rest))) text →
        ∃ error, parse text = .error error) ∧
    (∀ ls certificates body text, Bundle ls certificates → IsBody Pem.certificate body →
      Lined (ls ++ opening Pem.certificate :: body) text → ∃ error, parse text = .error error) ∧
    ∀ first second certificates more, Terminated first → parse first = .ok certificates →
      parse second = .ok more → parse (first ++ second) = .ok (certificates ++ more) := by
  refine ⟨?bundle, ?empty, rfl, ?base64, ?unended, ?together⟩
  case bundle =>
    intro ls text certificates hlined hbundle hne
    rw [parse_of_lined hlined hbundle, if_neg hne]
  case empty =>
    intro ls text hlined hbundle
    rw [parse_of_lined hlined hbundle, if_pos rfl]
  case base64 =>
    intro ls certificates body rest text hbundle hbody hbase64 hlined
    obtain ⟨error, hdecode⟩ : ∃ error, Text.Base64.decode body.flatten = .error error := by
      cases hdecode : Text.Base64.decode body.flatten with
      | error error => exact ⟨error, rfl⟩
      | ok bytes => exact absurd ((Text.Base64.exists_decode_iff _).mp ⟨bytes, hdecode⟩) hbase64
    obtain ⟨sections, -, hsections⟩ := hbundle.sectionsFrom_append
      (opening Pem.certificate :: (body ++ closing Pem.certificate :: rest))
    rw [sectionsFrom_section isLabel_certificate hbody,
      found_of_error certificate_mem_knownLabels hdecode] at hsections
    obtain ⟨error, herror⟩ := exists_error_of_lined hlined hsections
    exact ⟨_, herror⟩
  case unended =>
    intro ls certificates body text hbundle hbody hlined
    obtain ⟨sections, -, hsections⟩ :=
      hbundle.sectionsFrom_append (opening Pem.certificate :: body)
    rw [sectionsFrom_unended isLabel_certificate hbody] at hsections
    obtain ⟨error, herror⟩ := exists_error_of_lined hlined hsections
    exact ⟨_, herror⟩
  case together =>
    intro first second certificates more hends hfirst hsecond
    exact parse_append hends hfirst hsecond

/-- Two certificates, the first of them over two lines, with a remark before them and a key in
between. -/
def spread : List (List UInt8) :=
  ascii ['c', 'a'] :: opening Pem.certificate ::
    ([['A', 'Q'], ['I', 'D']].map ascii ++ closing Pem.certificate ::
      opening [75] :: ([ascii ['*']] ++ closing [75] ::
        opening Pem.certificate :: ([['B', 'A', '=', '=']].map ascii ++
          closing Pem.certificate :: [])))

theorem bundle_spread : Bundle spread [[1, 2, 3], [4]] := by
  have hfirst : Text.Base64.encode [1, 2, 3] = ['A', 'Q', 'I', 'D'] := by decide +kernel
  have hsecond : Text.Base64.encode [4] = ['B', 'A', '=', '='] := by decide +kernel
  have hkey : IsLabel [75] := by
    refine ⟨by decide, fun b hb => ?_⟩
    obtain rfl : 75 = b := Option.some.inj hb
    decide
  have hbody : IsBody [75] [ascii ['*']] := by
    intro line hline
    rw [List.mem_singleton.mp hline, Opens, Closes, begin_spelled, end_spelled]
    decide
  have hunknown : ([75] : List UInt8) ∉ knownLabels := by decide +kernel
  refine .commentary (by rw [Opens, begin_spelled]; decide) (.certificate ?_ ?_)
  · show Text.Base64.Carries ['A', 'Q', 'I', 'D'] [1, 2, 3]
    rw [← hfirst]
    exact Text.Base64.carries_encode [1, 2, 3]
  · refine .other hkey (by rw [certificate_spelled]; decide) hbody
      (fun hknown => absurd hknown hunknown) (.certificate ?_ .nil)
    show Text.Base64.Carries ['B', 'A', '=', '='] [4]
    rw [← hsecond]
    exact Text.Base64.carries_encode [4]

/-- Lines that all end in the same way. -/
def ended (ending : Ending) (ls : List (List UInt8)) : List UInt8 :=
  ls.flatMap (· ++ ending.bytes)

theorem lined_ended (ending : Ending) {ls : List (List UInt8)} (h : ∀ line ∈ ls, IsLine line) :
    Lined ls (ended ending ls) := by
  induction ls with
  | nil => exact .nil
  | cons line ls ih =>
    obtain ⟨hline, hls⟩ := List.forall_mem_cons.mp h
    exact .cons ending hline (ih hls)

theorem terminated_ended (ending : Ending) {ls : List (List UInt8)} (h : ls ≠ []) :
    Terminated (ended ending ls) := by
  obtain ⟨before, line, rfl⟩ := (List.eq_nil_or_concat ls).resolve_left h
  have hended : ended ending (before.concat line) =
      ended ending before ++ line ++ ending.bytes := by
    simp [ended]
  rw [hended]
  cases ending with
  | lineFeed => exact ⟨10, List.getLast?_concat, by decide⟩
  | carriageReturn => exact ⟨13, List.getLast?_concat, by decide⟩
  | both => exact ⟨10, by simp [Ending.bytes], by decide⟩

theorem isLine_spread : ∀ line ∈ spread, IsLine line := by
  simp only [spread, opening, closing, certificate_spelled, begin_spelled, end_spelled,
    dashes_spelled]
  decide

/-- The key is passed over, whatever it holds.  A third certificate that is cut off spoils the other
two. -/
theorem parse_bundle_spread :
    parse (ended .both spread) = .ok [[1, 2, 3], [4]] ∧
    parse (ended .both [ascii ['c', 'a']]) = .error .empty ∧
    (∃ error, parse (ended .lineFeed (spread ++ opening Pem.certificate :: ([ascii ['A']] ++
      closing Pem.certificate :: []))) = .error error) ∧
    (∃ error, parse (ended .lineFeed (spread ++ opening Pem.certificate :: [])) = .error error) ∧
    parse (ended .both spread ++ ended .both spread) =
      .ok [[1, 2, 3], [4], [1, 2, 3], [4]] := by
  obtain ⟨hbundle, hempty, -, hbase64, hunended, htogether⟩ := parse_bundle
  have hmarks : IsLine (opening Pem.certificate) ∧ IsLine (closing Pem.certificate) :=
    ⟨isLine_spread _ (by simp [spread]), isLine_spread _ (by simp [spread])⟩
  have hspread : parse (ended .both spread) = .ok [[1, 2, 3], [4]] :=
    hbundle _ _ _ (lined_ended .both isLine_spread) bundle_spread (List.cons_ne_nil _ _)
  refine ⟨hspread, ?_, ?_, ?_, ?_⟩
  · refine hempty _ _ (lined_ended .both ?_) (.commentary ?_ .nil)
    · decide
    · rw [Opens, begin_spelled]
      decide
  · refine hbase64 spread _ [ascii ['A']] [] _ bundle_spread ?_ ?_ (lined_ended .lineFeed ?_)
    · intro line hline
      rw [List.mem_singleton.mp hline, Opens, Closes, begin_spelled, end_spelled]
      decide
    · rw [← Text.Base64.exists_decode_iff]
      rintro ⟨bytes, hdecode⟩
      cases hdecode
    · refine List.forall_mem_append.mpr ⟨isLine_spread, ?_⟩
      refine List.forall_mem_cons.mpr ⟨hmarks.1, List.forall_mem_cons.mpr ⟨?_, ?_⟩⟩
      · decide
      · exact List.forall_mem_singleton.mpr hmarks.2
  · refine hunended spread _ [] _ bundle_spread (fun _ h => absurd h List.not_mem_nil)
      (lined_ended .lineFeed ?_)
    exact List.forall_mem_append.mpr ⟨isLine_spread, List.forall_mem_singleton.mpr hmarks.1⟩
  · exact htogether _ _ _ _ (terminated_ended .both (List.cons_ne_nil _ _)) hspread hspread

end Store
end PlaneBridge.Trust
