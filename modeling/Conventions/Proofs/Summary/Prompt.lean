import Conventions.Proofs.Findings.Document
import Conventions.Proofs.Json.Layout
import Conventions.Proofs.Text.Lines
import Conventions.Summary.Prompt

/-!
# What the prompt says

The prompt is a template with two fields. What is filled in is not looked at again, so braces of
labels stay braces. The document stands between two fences: no line of it is a fence, as each starts
with a brace, a bracket or indentation. So the prompt tells the findings, the counts and the
language, and nothing besides.
-/
namespace Conventions.Summary

/-- A template with its fields filled in: a doubled brace stands for a brace, a name in braces for
the text of that name, and every other brace is a mistake, as is a name without a text. -/
def expand (fields : List (String × String)) : List Char → Option (List Char)
  | [] => some []
  | '\x7b' :: '\x7b' :: cs => (expand fields cs).map ('\x7b' :: ·)
  | '\x7b' :: cs =>
    match _hdrop : cs.dropWhile (· != '\x7d') with
    | [] => none
    | _ :: rest => do
      let value ← fields.lookup (String.ofList (cs.takeWhile (· != '\x7d')))
      let text ← expand fields rest
      some (value.toList ++ text)
  | '\x7d' :: '\x7d' :: cs => (expand fields cs).map ('\x7d' :: ·)
  | '\x7d' :: _ => none
  | c :: cs => (expand fields cs).map (c :: ·)
termination_by cs => cs.length
decreasing_by
  · simp only [List.length_cons]
    omega
  · have hrest := List.length_dropWhile_le (· != '\x7d') cs
    rw [_hdrop, List.length_cons] at hrest
    rw [List.length_cons]
    omega
  · simp only [List.length_cons]
    omega
  · simp

/-- The text of a prompt with fields for the document and the language. -/
def template : String :=
  introduction ++ "\n" ++ "```json" ++ "\n" ++ "\x7bresult_json\x7d" ++ "\n" ++ "```" ++ "\n" ++
    (instructions ++ "\x7blanguage\x7d" ++ ".")

theorem expand_plain {fields : List (String × String)} {cs : List Char}
    (h : ∀ c ∈ cs, c ≠ '\x7b' ∧ c ≠ '\x7d') (rest : List Char) :
    expand fields (cs ++ rest) = (expand fields rest).map (cs ++ ·) := by
  induction cs with
  | nil => simp
  | cons c cs ih =>
    obtain ⟨⟨hopen, hclose⟩, hcs⟩ := List.forall_mem_cons.mp h
    rw [List.cons_append, expand, ih hcs, Option.map_map]
    · rfl
    · rintro cs rfl
      exact absurd rfl hopen
    · exact hopen
    · rintro cs rfl
      exact absurd rfl hclose
    · exact hclose

/-- A text is filled in as it is. -/
theorem expand_field {fields : List (String × String)} {name value : String}
    (hvalue : fields.lookup name = some value) (hname : '\x7d' ∉ name.toList)
    (hhead : name.toList.head? ≠ some '\x7b') (rest : List Char) :
    expand fields ('\x7b' :: (name.toList ++ '\x7d' :: rest)) =
      (expand fields rest).map (value.toList ++ ·) := by
  have hinside : ∀ c ∈ name.toList, (c != '\x7d') = true :=
    fun c hc => bne_iff_ne.mpr fun heq => hname (heq ▸ hc)
  have htake : (name.toList ++ '\x7d' :: rest).takeWhile (· != '\x7d') = name.toList := by
    rw [List.takeWhile_append_of_pos hinside, List.takeWhile_cons_of_neg (by simp),
      List.append_nil]
  have hdrop : (name.toList ++ '\x7d' :: rest).dropWhile (· != '\x7d') = '\x7d' :: rest := by
    rw [List.dropWhile_append_of_pos hinside, List.dropWhile_cons_of_neg (by simp)]
  rw [expand]
  · split
    next hnone =>
      rw [hdrop] at hnone
      cases hnone
    next c rest' hsome =>
      obtain ⟨rfl, rfl⟩ := List.cons.inj (hdrop.symm.trans hsome)
      rw [htake, String.ofList_toList, hvalue]
      cases expand fields rest with
      | none => rfl
      | some text => rfl
  · intro cs heq
    cases hlist : name.toList with
    | nil =>
      rw [hlist] at heq
      cases heq
    | cons c more =>
      rw [hlist] at heq hhead
      exact hhead (congrArg some (List.cons.inj heq).1)

theorem plain_introduction : ∀ c ∈ introduction.toList, c ∉ ['`', '\x7b', '\x7d'] := by
  unfold introduction
  simp only [String.toList_append, List.forall_mem_append]
  refine ⟨⟨⟨⟨⟨?_, ?_⟩, ?_⟩, ?_⟩, ?_⟩, ?_⟩ <;> exact Text.forall_of_ofList rfl (by decide)

theorem plain_instructions : ∀ c ∈ instructions.toList, c ∉ ['\x7b', '\x7d'] := by
  unfold instructions
  simp only [String.toList_append, List.forall_mem_append]
  refine ⟨⟨⟨⟨⟨⟨?_, ?_⟩, ?_⟩, ?_⟩, ?_⟩, ?_⟩, ?_⟩ <;> exact Text.forall_of_ofList rfl (by decide)

/-- The prompt is the template with the document and the language filled in as they are. -/
theorem expand_template (language : String) (p : Profile) :
    expand [("result_json", (payload p).print), ("language", language)] template.toList =
      some (prompt language p).toList := by
  have hplain : ∀ c, c ∉ ['\x7b', '\x7d'] → c ≠ '\x7b' ∧ c ≠ '\x7d' := by
    intro c hc
    simpa using hc
  have hfence : ∀ c ∈ "\n".toList ++ ("```json".toList ++ "\n".toList), c ∉ ['\x7b', '\x7d'] :=
    List.all_iff_forall_prop.mp (by decide)
  have hfence' : ∀ c ∈ "\n".toList ++ ("```".toList ++ "\n".toList), c ∉ ['\x7b', '\x7d'] :=
    List.all_iff_forall_prop.mp (by decide)
  have hstart : ∀ c ∈ introduction.toList ++ ("\n".toList ++ ("```json".toList ++ "\n".toList)),
      c ≠ '\x7b' ∧ c ≠ '\x7d' := by
    refine List.forall_mem_append.mpr ⟨fun c hc => ?_, fun c hc => hplain c (hfence c hc)⟩
    exact hplain c fun h => plain_introduction c hc (List.mem_cons_of_mem _ h)
  have hmiddle : ∀ c ∈ ("\n".toList ++ ("```".toList ++ "\n".toList)) ++ instructions.toList,
      c ≠ '\x7b' ∧ c ≠ '\x7d' :=
    List.forall_mem_append.mpr
      ⟨fun c hc => hplain c (hfence' c hc), fun c hc => hplain c (plain_instructions c hc)⟩
  have hend : ∀ c ∈ ".".toList, c ≠ '\x7b' ∧ c ≠ '\x7d' :=
    List.all_iff_forall_prop.mp (by decide)
  have hdocument : "\x7bresult_json\x7d".toList =
      '\x7b' :: ("result_json".toList ++ ['\x7d']) := rfl
  have hlanguage : "\x7blanguage\x7d".toList = '\x7b' :: ("language".toList ++ ['\x7d']) := rfl
  have htemplate : template.toList =
      (introduction.toList ++ ("\n".toList ++ ("```json".toList ++ "\n".toList))) ++
      '\x7b' :: ("result_json".toList ++ '\x7d' ::
        ((("\n".toList ++ ("```".toList ++ "\n".toList)) ++ instructions.toList) ++
          '\x7b' :: ("language".toList ++ '\x7d' :: (".".toList ++ [])))) := by
    unfold template
    simp only [String.toList_append, hdocument, hlanguage, List.append_assoc, List.cons_append,
      List.nil_append, List.append_nil]
  rw [htemplate, expand_plain hstart, expand_field rfl (by decide) (by decide),
    expand_plain hmiddle, expand_field rfl (by decide) (by decide), expand_plain hend, expand]
  unfold prompt
  simp only [Option.map_some, String.toList_append, List.append_assoc, List.append_nil]

theorem payload_eq (p : Profile) : payload p = .obj (p.findings.sections ++
    [("language_counts", .obj (p.languageCounts.map fun entry => (entry.1, .int entry.2)))]) := by
  have hsections : p.findings.sections.filter (fun m => !(["llm_summary", "stats"].contains m.1)) =
      p.findings.sections := List.filter_eq_self.mpr (by simp [Findings.sections])
  show Json.obj (List.filter _ (_ ++ _)) = _
  rw [List.filter_append, hsections]
  rfl

theorem readable_payload (p : Profile) : Json.Readable none (payload p) := by
  have hdocument : Json.Readable none p.document := Profile.readable_document nofun
  rw [payload_eq]
  refine readable_obj.mpr fun m hm => readable_obj.mp hdocument m ?_
  rcases List.mem_append.mp hm with hm | hm
  · exact List.mem_append_left _ hm
  · obtain rfl := List.mem_singleton.mp hm
    exact List.mem_append_right _ List.mem_cons_self

/-- The document shows the findings and the counts, and nothing else. -/
theorem payload_eq_payload_iff {p q : Profile} :
    payload p = payload q ↔ p.findings = q.findings ∧ p.languageCounts = q.languageCounts := by
  rw [payload_eq, payload_eq]
  constructor
  · intro h
    obtain ⟨hsections, hcounts⟩ := List.append_inj (Json.obj.inj h) rfl
    simp only [List.cons.injEq, Prod.mk.injEq, Json.obj.injEq, true_and, and_true,
      countsDocument_inj] at hcounts
    exact ⟨Findings.sections_inj.mp hsections, hcounts⟩
  · rintro ⟨hfindings, hcounts⟩
    rw [hfindings, hcounts]

/-- No line of the document is a fence. -/
theorem fence_not_mem_payload (p : Profile) : "```" ∉ Text.lines (payload p).print := by
  have hlaid : Json.Laid (payload p).print.toList := by
    rw [Json.print, String.toList_ofList]
    exact Json.laid_printAt (readable_payload p) 0
  have hbrace : (payload p).print.toList.head? = some '\x7b' := by
    rw [Json.print, String.toList_ofList, payload_eq]
    rfl
  intro h
  rcases hlaid.head_of_mem_lines h rfl with hhead | hhead
  · rw [hbrace] at hhead
    exact absurd hhead (by decide)
  · exact absurd hhead (by decide)

theorem fence_not_mem_introduction : "```json" ∉ Text.lines introduction := by
  intro h
  obtain ⟨before, after, heq, -⟩ := Text.exists_of_mem_lines h
  refine plain_introduction '`' ?_ (by decide)
  rw [heq, String.toList_append, String.toList_append]
  exact List.mem_append_right _ (List.mem_append_left _ (by decide))

theorem lines_prompt (language : String) (p : Profile) : Text.lines (prompt language p) =
    Text.lines introduction ++ "```json" :: (Text.lines (payload p).print ++
      "```" :: Text.lines (instructions ++ language ++ ".")) := by
  unfold prompt
  rw [Text.lines_append, Text.lines_append, Text.lines_append, Text.lines_append,
    Text.lines_of_single (by decide : '\n' ∉ "```json".toList),
    Text.lines_of_single (by decide : '\n' ∉ "```".toList)]
  simp only [List.append_assoc, List.cons_append, List.nil_append]

/-- What stands between the fences is read back as the findings and counts. -/
theorem read_payload (p : Profile) :
    Json.readWithin? none ("\n".intercalate (Text.lines (payload p).print)).toList =
      some (payload p) := by
  rw [Text.intercalate_lines]
  exact Json.readWithin?_print (readable_payload p)

/-- The prompt tells the language, the findings and the counts. -/
theorem prompt_eq_prompt_iff {language language' : String} {p q : Profile} :
    prompt language p = prompt language' q ↔
      language = language' ∧ p.findings = q.findings ∧ p.languageCounts = q.languageCounts := by
  rw [← payload_eq_payload_iff]
  constructor
  · intro h
    have hlines := congrArg Text.lines h
    rw [lines_prompt, lines_prompt] at hlines
    have hrest := List.append_cancel_left hlines
    obtain ⟨hpayload, hend⟩ := Text.eq_of_append_mark (fence_not_mem_payload p)
      (fence_not_mem_payload q) (List.cons.inj hrest).2
    have hread := read_payload p
    rw [hpayload, read_payload q] at hread
    have htext := congrArg ("\n".intercalate ·) hend
    simp only [Text.intercalate_lines, String.append_left_inj, String.append_right_inj] at htext
    exact ⟨htext, (Option.some.inj hread).symm⟩
  · rintro ⟨rfl, hpayload⟩
    unfold prompt
    rw [hpayload]

/-- In the prompt the document stands between the line that opens the fence and the first line
after it that is the fence, and it is read back as the findings and counts. The prompt is the
template with the document and the language filled in as they are, it ends with the language and a
period, and it is the same for two profiles exactly if these have the same findings and counts. -/
theorem prompt_carries_findings (language : String) (p : Profile) :
    (∃ before inside after, Text.lines (prompt language p) =
        before ++ "```json" :: (inside ++ "```" :: after) ∧
      "```json" ∉ before ∧ "```" ∉ inside ∧
      Json.readWithin? none ("\n".intercalate inside).toList = some (payload p)) ∧
    expand [("result_json", (payload p).print), ("language", language)] template.toList =
      some (prompt language p).toList ∧
    (∃ start, prompt language p = start ++ language ++ ".") ∧
    (∀ q, prompt language q = prompt language p ↔
      q.findings = p.findings ∧ q.languageCounts = p.languageCounts) ∧
    ∀ stats summary, prompt language { p with stats := stats, summary := summary } =
      prompt language p := by
  have hend : prompt language p = introduction ++ "\n" ++ "```json" ++ "\n" ++ (payload p).print ++
      "\n" ++ "```" ++ "\n" ++ instructions ++ language ++ "." := by
    unfold prompt
    simp only [String.append_assoc]
  refine ⟨⟨_, _, _, lines_prompt language p, fence_not_mem_introduction, fence_not_mem_payload p,
    read_payload p⟩, expand_template language p, ⟨_, hend⟩, fun q => ?_, fun stats summary => ?_⟩
  · rw [prompt_eq_prompt_iff]
    exact and_iff_right rfl
  · exact prompt_eq_prompt_iff.mpr ⟨rfl, rfl, rfl⟩

end Conventions.Summary
