import Mathlib.Data.List.Perm.Basic
import Conventions.Proofs.Analysis.Scope
import Conventions.Proofs.Files.Discovery
import Conventions.Proofs.Files.Source
import Conventions.Proofs.Findings.Field
import Conventions.Proofs.Heuristics.Secret
import Conventions.Proofs.Run.Discovered

/-!
# Secrets in the result of a run

A run reports a secret for each discovered file whose text could be read and holds one, and
for no other file. The label is made from the path before anything is known about grammar,
syntax or analysis; no analysis adds one, and the union of labels keeps each because
different files have different labels.
-/
namespace Conventions

/-- The text of the file at a path could be read and holds a secret. -/
def Surroundings.Leaks (w : Surroundings) (s : Settings) (root p : Path) : Prop :=
  ∃ source, Files.readSource w.tree root p s.maxFileSize = .ok source ∧ Secret.Occurs source

instance (w : Surroundings) (s : Settings) (root : Path) : DecidablePred (w.Leaks s root) :=
  fun p =>
    match h : Files.readSource w.tree root p s.maxFileSize with
    | .ok source =>
      decidable_of_iff (Secret.Occurs source)
        ⟨fun ho => ⟨source, h, ho⟩, fun ⟨_, hs, ho⟩ => Except.ok.inj (h.symm.trans hs) ▸ ho⟩
    | .error _ => isFalse fun ⟨_, hs, _⟩ => by rw [h] at hs; cases hs

/-- The labels of the secrets in the files at these paths: one for each file with a secret, and
none for anything else. -/
structure Surroundings.ReportsSecrets (w : Surroundings) (s : Settings) (root : Path)
    (paths : List Path) (labels : List String) : Prop where
  exact : ∀ x, x ∈ labels ↔ ∃ p ∈ paths, w.Leaks s root p ∧ x = Secret.label p.text
  once : ∀ p ∈ paths, w.Leaks s root p → labels.count (Secret.label p.text) = 1
  length : labels.length = paths.countP fun p => w.Leaks s root p
  unread : ∀ p ∈ paths, (∀ source, Files.readSource w.tree root p s.maxFileSize ≠ .ok source) →
    Secret.label p.text ∉ labels
  oversized : ∀ p ∈ paths, Files.Oversized w.tree root p s.maxFileSize →
    Secret.label p.text ∉ labels

theorem Secret.label_inj {a b : String} (h : label a = label b) : a = b :=
  (String.append_right_inj _).mp h

/-- A contribution of a file brings the label of this file, and only where it holds a secret. -/
theorem Surroundings.Gives.secret {w : Surroundings} {s : Settings} {root p : Path}
    {c : Contribution} (h : w.Gives s root p c) {x : String}
    (hx : x ∈ c.labels .hardcodedSecrets) : w.Leaks s root p ∧ x = Secret.label p.text := by
  cases h with
  | @heuristics source hread =>
    obtain ⟨hsecret, rfl⟩ := Heuristics.mem_securityOf.mp hx
    exact ⟨⟨source, hread, hsecret⟩, rfl⟩
  | analysis l doc =>
    have hnone := (Analysis.inScope_analyzeFile p l doc).security
    exact absurd (congrArg Security.hardcodedSecrets hnone) (List.ne_nil_of_mem hx)

/-- A file with a secret contributes its label, however it ends. -/
theorem Surroundings.Leaks.contributes {w : Surroundings} {s : Settings} {root p : Path}
    (h : w.Leaks s root p) :
    ∃ c ∈ (w.stages s.maxFileSize root p).outcome.contributions p.text,
      Secret.label p.text ∈ c.labels .hardcodedSecrets := by
  obtain ⟨source, hread, hsecret⟩ := h
  have hlabel : Secret.label p.text ∈ (Heuristics.securityOf p source).hardcodedSecrets :=
    Heuristics.mem_securityOf.mpr ⟨hsecret, rfl⟩
  exact ⟨{ path := p.text, findings := Heuristics.findings p source },
    Stages.heuristics_mem_contributions (read_stages.mpr hread) rfl _, hlabel⟩

section

variable {w : Surroundings} {s : Settings} {root : Path} {files : List (Path × Stages)}

theorem Surroundings.mem_secrets_pooled (hf : w.files s root = .ok files)
    {cs : List Contribution} (hcs : cs.Perm (contributionsOf files)) {x : String} :
    x ∈ (Findings.pooled cs).labels .hardcodedSecrets ↔
      ∃ p ∈ files.map Prod.fst, w.Leaks s root p ∧ x = Secret.label p.text := by
  rw [Findings.mem_labels_pooled]
  constructor
  · rintro ⟨c, hc, hx⟩
    obtain ⟨file, hfile, hgives⟩ := gives_of_mem_contributionsOf hf (hcs.mem_iff.mp hc)
    exact ⟨file.1, List.mem_map_of_mem hfile, hgives.secret hx⟩
  · rintro ⟨_, hp, hleaks, rfl⟩
    obtain ⟨file, hfile, rfl⟩ := List.mem_map.mp hp
    obtain ⟨c, hc, hlabel⟩ := hleaks.contributes
    rw [← stages_of_mem hf hfile] at hc
    exact ⟨c, hcs.mem_iff.mpr (List.mem_flatMap.mpr ⟨file, hfile, hc⟩), hlabel⟩

/-- Labels that are there once for each file with a secret report the secrets exactly. -/
theorem Surroundings.reportsSecrets_of_nodup {paths : List Path} {labels : List String}
    (hpaths : (paths.map Path.text).Nodup) (hlabels : labels.Nodup)
    (hexact : ∀ x, x ∈ labels ↔ ∃ p ∈ paths, w.Leaks s root p ∧ x = Secret.label p.text) :
    w.ReportsSecrets s root paths labels := by
  have hunread : ∀ p ∈ paths,
      (∀ source, Files.readSource w.tree root p s.maxFileSize ≠ .ok source) →
      Secret.label p.text ∉ labels := by
    intro p hp hnone hlabel
    obtain ⟨q, hq, ⟨source, hread, -⟩, htext⟩ := (hexact _).mp hlabel
    have hself := List.inj_on_of_nodup_map hpaths hp hq (Secret.label_inj htext)
    exact hnone source (hself ▸ hread)
  constructor
  case exact => exact hexact
  case once =>
    intro p hp hleaks
    exact List.count_eq_one_of_mem hlabels ((hexact _).mpr ⟨p, hp, hleaks, rfl⟩)
  case length =>
    have hleaking : ((paths.filter fun p => w.Leaks s root p).map
        fun p => Secret.label p.text).Nodup := by
      have htexts : ((paths.filter fun p => w.Leaks s root p).map Path.text).Nodup :=
        hpaths.sublist (List.filter_sublist.map Path.text)
      have hmap := htexts.map (f := Secret.label) fun _ _ => Secret.label_inj
      rwa [List.map_map] at hmap
    have hperm := (List.perm_ext_iff_of_nodup hlabels hleaking).mpr fun x => by
      simp [hexact, and_assoc, eq_comm]
    rw [hperm.length_eq, List.length_map, List.countP_eq_length_filter]
  case unread => exact hunread
  case oversized =>
    intro p hp hlarge
    exact hunread p hp (Files.readSource_of_oversized hlarge)

end

/-- On every schedule and in both modes the secrets of the result are those of the files that
could be read, whatever the grammar, the parser and the analysis make of them. -/
theorem run_reportsSecrets {w : Surroundings} {s : Settings} {root : Path}
    {files : List (Path × Stages)} {calls : List Call} (deterministic : Bool)
    (ht : w.tree.WellFormed) (hf : w.files s root = .ok files)
    (h : Interleaves (callsOf files) calls) :
    w.ReportsSecrets s root (files.map Prod.fst) ((Aggregator.fresh deterministic).performAll
      calls).finalize.1.findings.security.hardcodedSecrets := by
  rw [Aggregator.finalize_performAll, Profile.findings_withStats]
  exact Surroundings.reportsSecrets_of_nodup (Surroundings.nodup_texts ht hf)
    (Findings.nodup_labels_pooled _ .hardcodedSecrets) fun _ =>
      Surroundings.mem_secrets_pooled hf (h.applied_perm deterministic)

/-- One of two files holds a secret. -/
theorem run_reportsSecrets_sample :
    "Potential secret in handler/b.yaml" ∈ ((Aggregator.fresh true).performAll
        (callsOf sampleProjectFiles).flatten).finalize.1.findings.security.hardcodedSecrets ∧
      ((Aggregator.fresh true).performAll
        (callsOf sampleProjectFiles).flatten).finalize.1.findings.security.hardcodedSecrets.length =
          1 := by
  obtain ⟨hinner, hbeside⟩ := read_sampleProject
  have hleaks : sampleProject.Leaks sampleSettings ⟨"/", []⟩ ⟨"", ["handler", "b.yaml"]⟩ :=
    ⟨_, hinner, by decide⟩
  have hnone : ¬sampleProject.Leaks sampleSettings ⟨"/", []⟩ ⟨"", ["handler.json"]⟩ := by
    rintro ⟨source, hread, hsecret⟩
    obtain rfl := Except.ok.inj (hbeside.symm.trans hread)
    revert hsecret
    decide
  have hreports := run_reportsSecrets true wellFormed_sampleProject files_sampleProject
    (interleaves_flatten (callsOf sampleProjectFiles))
  refine ⟨(hreports.exact _).mpr ⟨_, List.mem_cons_self, hleaks, by decide⟩, ?_⟩
  rw [hreports.length]
  simp [sampleProjectFiles, samplePaths, hleaks, hnone]

end Conventions
