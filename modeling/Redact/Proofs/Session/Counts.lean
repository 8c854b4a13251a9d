import Redact.Proofs.Session.Event
import Redact.Proofs.Sorting

/-! # What the counts tell

The counts of a sanitizer follow the plans that its calls compute: counting the edits of some plans brings
their rules in the order in which they first come up, each with the number of its edits (`tally_nil`). So at
every point of a session the statistics tell the plans since the counts were last reset, whatever came of
the calls (`course_stats`). -/

namespace Redact

/-- The members of a list, each once, in the order in which they first come up. -/
structure InFirstOrder {α : Type} [DecidableEq α] (firsts xs : List α) : Prop where
  mem_iff : ∀ x, x ∈ firsts ↔ x ∈ xs
  ascending : firsts.Pairwise fun a b => xs.idxOf a < xs.idxOf b

namespace InFirstOrder

variable {α : Type} [DecidableEq α] {firsts xs : List α}

theorem nodup (h : InFirstOrder firsts xs) : firsts.Nodup := by
  refine h.ascending.imp ?_
  rintro a b hlt rfl
  exact Nat.lt_irrefl _ hlt

/-- A new member goes to the end; one that is there keeps its place. -/
theorem snoc (h : InFirstOrder firsts xs) (x : α) :
    InFirstOrder (if x ∈ firsts then firsts else firsts ++ [x]) (xs ++ [x]) := by
  have hkept : firsts.Pairwise fun a b => (xs ++ [x]).idxOf a < (xs ++ [x]).idxOf b := by
    refine h.ascending.imp_of_mem ?_
    intro a b ha hb hlt
    rwa [List.idxOf_append_of_mem ((h.mem_iff a).1 ha), List.idxOf_append_of_mem ((h.mem_iff b).1 hb)]
  split
  · rename_i hx
    refine ⟨fun y => ?_, hkept⟩
    rw [List.mem_append, List.mem_singleton, h.mem_iff]
    refine ⟨Or.inl, ?_⟩
    rintro (hy | rfl)
    · exact hy
    · exact (h.mem_iff y).1 hx
  · rename_i hx
    refine ⟨fun y => by simp [h.mem_iff], List.pairwise_append.2 ⟨hkept, List.pairwise_singleton _ _, ?_⟩⟩
    intro a ha b hb
    obtain rfl := List.mem_singleton.1 hb
    have hnew : b ∉ xs := fun hb => hx ((h.mem_iff b).2 hb)
    have ha' : a ∈ xs := (h.mem_iff a).1 ha
    rw [List.idxOf_append_of_mem ha', List.idxOf_append_of_notMem hnew]
    have := List.idxOf_lt_length_iff.2 ha'
    omega

end InFirstOrder

/-! ### Counting the edits of plans -/

namespace Counts

/-- The counts after the edits of a plan. -/
def tally (counts : Counts) (edits : List Edit) : Counts :=
  edits.foldl (fun c e => Counts.add e.rule c) counts

theorem tally_append (counts : Counts) (xs ys : List Edit) :
    counts.tally (xs ++ ys) = (counts.tally xs).tally ys :=
  List.foldl_append

theorem add_map {rule : Rule} {rules : List Rule} {f : Rule → Nat} (hnodup : rules.Nodup)
    (hf : rule ∉ rules → f rule = 0) :
    Counts.add rule (rules.map fun r => (r, f r)) =
      (if rule ∈ rules then rules else rules ++ [rule]).map
        fun r => (r, f r + if r = rule then 1 else 0) := by
  induction rules with
  | nil => simp [add, hf]
  | cons first rest ih =>
    obtain ⟨hfirst, hrest⟩ := List.nodup_cons.1 hnodup
    rw [List.map_cons, add]
    by_cases heq : first = rule
    · subst heq
      have hsame : ∀ r ∈ rest, (r, f r) = (r, f r + if r = first then 1 else 0) := by
        intro r hr
        have hne : r ≠ first := fun h => hfirst (h ▸ hr)
        simp [hne]
      simp [List.map_congr_left hsame]
    · have hmem : rule ∈ first :: rest ↔ rule ∈ rest := by simp [Ne.symm heq]
      rw [if_neg heq, ih hrest fun h => hf (mt hmem.1 h)]
      by_cases hrule : rule ∈ rest
      · simp [hrule, heq]
      · simp [hrule, heq, Ne.symm heq]

/-- The rules of the edits in the order in which they first come up, each with the number of its edits. -/
theorem tally_nil (edits : List Edit) :
    ∃ rules, InFirstOrder rules (edits.map Edit.rule) ∧
      Counts.tally [] edits = rules.map fun r => (r, (edits.map Edit.rule).count r) := by
  induction edits using List.reverseRecOn with
  | nil => exact ⟨[], ⟨fun _ => Iff.rfl, List.Pairwise.nil⟩, rfl⟩
  | append_singleton edits e ih =>
    obtain ⟨rules, horder, htally⟩ := ih
    refine ⟨_, by simpa using horder.snoc e.rule, ?_⟩
    have hzero : e.rule ∉ rules → (edits.map Edit.rule).count e.rule = 0 :=
      fun h => List.count_eq_zero.2 (mt (horder.mem_iff e.rule).2 h)
    have hcount : ∀ r, ((edits ++ [e]).map Edit.rule).count r =
        (edits.map Edit.rule).count r + if r = e.rule then 1 else 0 := by
      intro r
      rw [List.map_append, List.count_append, List.map_singleton, List.count_singleton]
      simp only [beq_iff_eq, @eq_comm _ e.rule]
    rw [tally_append, htally]
    simp only [hcount]
    exact add_map horder.nodup hzero

end Counts

/-- The statistics tell what these plans hold. -/
structure Counts.Tell (stats : Counts) (plans : List (List Edit)) : Prop where
  rules_iff : ∀ rule, (∃ n, (rule, n) ∈ stats) ↔ ∃ plan ∈ plans, ∃ e ∈ plan, e.rule = rule
  number : ∀ rule n, (rule, n) ∈ stats → n = plans.flatten.countP (·.rule == rule)
  nodup : (stats.map Prod.fst).Nodup
  descending : stats.Pairwise fun a b => b.2 ≤ a.2
  ties : stats.Pairwise fun a b => a.2 = b.2 →
    plans.flatten.findIdx (·.rule == a.1) < plans.flatten.findIdx (·.rule == b.1)

namespace Sanitizer

variable {G : Type}

theorem descending_trans (a b c : Rule × Nat) (hab : decide (b.2 ≤ a.2) = true)
    (hbc : decide (c.2 ≤ b.2) = true) : decide (c.2 ≤ a.2) = true := by
  simp only [decide_eq_true_eq] at *
  omega

theorem descending_total (a b : Rule × Nat) : (decide (b.2 ≤ a.2) || decide (a.2 ≤ b.2)) = true := by
  simp only [Bool.or_eq_true, decide_eq_true_eq]
  omega

theorem stats_perm (s : Sanitizer G) : s.stats.Perm s.counts := List.mergeSort_perm _ _

theorem stats_descending (s : Sanitizer G) : s.stats.Pairwise fun a b => b.2 ≤ a.2 := by
  have hsorted := List.pairwise_mergeSort descending_trans descending_total s.counts
  exact hsorted.imp of_decide_eq_true

/-- Entries with the same count keep their order. -/
theorem stats_ties {s : Sanitizer G} {R : Rule × Nat → Rule × Nat → Prop} (h : s.counts.Pairwise R) :
    s.stats.Pairwise fun a b => a.2 = b.2 → R a b := by
  rw [List.pairwise_iff_forall_sublist]
  intro a b hab heq
  have hclass : s.stats.filter (·.2 == a.2) = s.counts.filter (·.2 == a.2) := by
    apply filter_mergeSort descending_total descending_trans
    intro x y hx hy
    rw [eq_of_beq hx, eq_of_beq hy]
    exact decide_eq_true (Nat.le_refl _)
  have hpart : [a, b].Sublist (s.stats.filter (·.2 == a.2)) := by
    simpa [heq] using hab.filter (·.2 == a.2)
  rw [hclass] at hpart
  exact List.pairwise_iff_forall_sublist.1 h (hpart.trans List.filter_sublist)

/-- Counts that follow some plans make statistics that tell what the plans hold. -/
theorem stats_tell {s : Sanitizer G} {plans : List (List Edit)}
    (h : s.counts = Counts.tally [] plans.flatten) : s.stats.Tell plans := by
  obtain ⟨rules, horder, htally⟩ := Counts.tally_nil plans.flatten
  have hcounts := h.trans htally
  have hmem : ∀ rule n, (rule, n) ∈ s.stats ↔
      rule ∈ rules ∧ (plans.flatten.map Edit.rule).count rule = n := by
    intro rule n
    rw [s.stats_perm.mem_iff, hcounts]
    simp
  constructor
  · intro rule
    simp only [hmem, exists_and_left, exists_eq', and_true, horder.mem_iff, List.mem_map,
      List.mem_flatten]
    constructor
    · rintro ⟨e, ⟨plan, hplan, he⟩, hrule⟩
      exact ⟨plan, hplan, e, he, hrule⟩
    · rintro ⟨plan, hplan, e, he, hrule⟩
      exact ⟨e, ⟨plan, hplan, he⟩, hrule⟩
  · intro rule n hn
    rw [← ((hmem rule n).1 hn).2, List.count, List.countP_map]
    rfl
  · rw [(s.stats_perm.map Prod.fst).nodup_iff, hcounts, List.map_map]
    simpa [Function.comp_def] using horder.nodup
  · exact s.stats_descending
  · apply stats_ties
    rw [hcounts, List.pairwise_map]
    refine horder.ascending.imp ?_
    intro a b hlt
    rwa [List.idxOf, List.idxOf, List.findIdx_map, List.findIdx_map] at hlt

/-! ### The plan of a call -/

/-- The plan for a source of which the parser made this, if that is a tree. -/
def planOf? (settings : Settings) (language : String) (source : List UInt8) :
    Parsed → Option (List Edit)
  | .tree root =>
    (Language.ofName? language).map fun l => Secret.plan (Shape.ofLanguage l) settings source root
  | .nothing | .badGrammar => none

/-- The plan for a text with a grammar, if the text has bytes and the parser makes a tree of them. -/
def planWith? (settings : Settings) (parser : Parser G) (grammar : G) (language : String)
    (code : RawText) : Option (List Edit) :=
  code.encode?.bind fun source => planOf? settings language source (parser.outcome grammar source)

/-- Redaction counts the edits of the plan before it applies them. -/
theorem redactParsed_counts (s : Sanitizer G) (parsed : Parsed) (language : String) (code : RawText)
    (source : List UInt8) :
    (s.redactParsed parsed language code source).2.counts =
      Counts.tally s.counts ((planOf? s.settings language source parsed).getD []) := by
  unfold redactParsed planOf?
  cases parsed with
  | nothing => rfl
  | badGrammar => rfl
  | tree root =>
    cases Language.ofName? language with
    | none => rfl
    | some l =>
      simp only [redactTree, Option.map_some, Option.getD_some]
      split
      · rename_i hempty
        rw [List.isEmpty_iff.1 hempty]
        rfl
      · rfl

theorem redactWith_counts (s : Sanitizer G) (parser : Parser G) (grammar : G) (language : String)
    (code : RawText) :
    (s.redactWith parser grammar language code).2.counts =
      Counts.tally s.counts ((planWith? s.settings parser grammar language code).getD []) := by
  unfold redactWith planWith?
  cases code.encode? with
  | none => rfl
  | some source => exact s.redactParsed_counts _ language code source

end Sanitizer

namespace Session

variable {G : Type}

/-- The plan that a call computes, if it gets that far. -/
def plan? (σ : Session G) (code : RawText) (language : String) : Option (List Edit) :=
  if σ.sanitizer.settings.enabled then
    match σ.sanitizer.withEngine σ.environment with
    | (.error _, _, _) => none
    | (.ok engine, s, p) =>
      match s.grammar p language with
      | (.ok (some g), _, p, _) =>
        Sanitizer.planWith? σ.sanitizer.settings (engine.parserIn p) g language code
      | (_, _, _, _) => none
  else none

theorem plan?_of_able {σ : Session G} (ha : ∀ cause, ¬ σ.Lacks cause)
    (he : σ.sanitizer.settings.enabled = true) {language : String} {g : G}
    (hg : (σ.registry.resolve language).1 = .ok (some g)) (code : RawText) :
    σ.plan? code language =
      Sanitizer.planWith? σ.sanitizer.settings σ.parser g language code := by
  obtain ⟨engine, τ, hengine, hagrees, hregistry, hτ, -⟩ := withEngine_of_able ha
  rw [← hregistry] at hg
  simp only [plan?, he, if_true, hengine, grammar_eq, hg, parserIn_withRegistry hτ, hagrees.parser]

/-- The plans computed since the counts were last reset, after an event, given those before it. -/
def plansAfter (σ : Session G) (plans : List (List Edit)) : Event → List (List Edit)
  | .sanitize code language => plans ++ (σ.plan? code language).toList
  | .resetStats => []
  | _ => plans

/-- The plans computed since the counts were last reset, after some events. -/
def plansSinceReset (σ : Session G) (plans : List (List Edit)) : List Event → List (List Edit)
  | [] => plans
  | event :: rest => (σ.happen event).plansSinceReset (σ.plansAfter plans event) rest

/-- A call counts the edits of its plan and no others, however it ends. -/
theorem counts_sanitize (σ : Session G) (code : RawText) (language : String) :
    (σ.happen (.sanitize code language)).sanitizer.counts =
      Counts.tally σ.sanitizer.counts ((σ.plan? code language).getD []) := by
  rw [happen, after, reply]
  cases he : σ.sanitizer.settings.enabled with
  | false =>
    simp only [Sanitizer.sanitize, plan?, he]
    rfl
  | true =>
    -- Neither the engine nor the registry has anything to do with the counts.
    obtain ⟨held, hs⟩ := σ.sanitizer.withEngine_snd σ.environment
    rcases hengine : σ.sanitizer.withEngine σ.environment with ⟨e | engine, s, p⟩
    · rw [hengine] at hs
      obtain rfl : s = { σ.sanitizer with engine := held } := hs
      simp only [Sanitizer.sanitize, plan?, he, hengine]
      rfl
    · rw [hengine] at hs
      obtain rfl : s = { σ.sanitizer with engine := held } := hs
      obtain ⟨registry, hs'⟩ := Sanitizer.grammar_snd { σ.sanitizer with engine := held } p language
      rcases hgrammar : Sanitizer.grammar { σ.sanitizer with engine := held } p language with
        ⟨fault | g?, s', p', warnings⟩
      · rw [hgrammar] at hs'
        obtain rfl : s' = { σ.sanitizer with engine := held, registry } := hs'
        simp only [Sanitizer.sanitize, plan?, he, hengine, hgrammar]
        rfl
      · rw [hgrammar] at hs'
        obtain rfl : s' = { σ.sanitizer with engine := held, registry } := hs'
        cases g? with
        | none =>
          simp only [Sanitizer.sanitize, plan?, he, hengine, hgrammar]
          rfl
        | some g =>
          have hplan : σ.plan? code language = Sanitizer.planWith? σ.sanitizer.settings
              (engine.parserIn p') g language code := by
            simp only [plan?, he, if_true, hengine, hgrammar]
          obtain ⟨engine', active, hreply, -⟩ := Sanitizer.sanitize_of_grammar he hengine hgrammar code
          rw [hreply, hplan]
          exact Sanitizer.redactWith_counts _ _ g language code

theorem counts_happen {σ : Session G} {plans : List (List Edit)}
    (h : σ.sanitizer.counts = Counts.tally [] plans.flatten) (event : Event) :
    (σ.happen event).sanitizer.counts = Counts.tally [] (σ.plansAfter plans event).flatten := by
  cases event with
  | sanitize code language =>
    rw [counts_sanitize, h, ← Counts.tally_append, plansAfter, List.flatten_append]
    cases σ.plan? code language <;> simp
  | configure settings => exact h
  | resetStats => rfl
  | getStats => exact h
  | host step => exact h
  | registry step => exact (σ.counts_withRegistry _).trans h

theorem counts_course {σ : Session G} {plans : List (List Edit)}
    (h : σ.sanitizer.counts = Counts.tally [] plans.flatten) (events : List Event) :
    (σ.course events).sanitizer.counts =
      Counts.tally [] (σ.plansSinceReset plans events).flatten := by
  induction events generalizing σ plans with
  | nil => exact h
  | cons event rest ih => exact ih (counts_happen h event)

/-- At every point of a session that starts without counts, the statistics tell the plans that were computed
since the counts were last reset, and reading them makes no difference. -/
theorem course_stats {start : Session G} (h : start.sanitizer.counts = []) (events : List Event) :
    (start.course events).sanitizer.stats.Tell (start.plansSinceReset [] events) ∧
      ∀ before rest, events = before ++ .getStats :: rest →
        start.course events = start.course (before ++ rest) := by
  refine ⟨Sanitizer.stats_tell (@counts_course _ _ [] h events), ?_⟩
  rintro before rest rfl
  rw [course_append, course_append]
  rfl

/-- The first call fails to load and counts nothing; the second one computes a plan of one edit. -/
theorem course_stats_late :
    lateSession.sanitizer.counts = [] ∧
      Counts.Tell
        (lateSession.course [.sanitize (Secret.sampleCode "clé_key") " JavaScript", .getStats,
          .sanitize (Secret.sampleCode "clé_key") " JavaScript"]).sanitizer.stats
        [[⟨11, 40, "\x22<REDACTED>\x22", .sensitiveAssignment⟩]] := by
  have hcandidates : Secret.candidates (Shape.ofLanguage .javascript) {}
      (Secret.sampleSource "clé_key") Secret.sampleTree =
        [⟨11, 40, "\x22<REDACTED>\x22", .sensitiveAssignment⟩,
          ⟨14, 39, "\x22<REDACTED>\x22", .secretToken⟩] := by decide +kernel
  have hplan : Secret.plan (Shape.ofLanguage .javascript) {} (Secret.sampleSource "clé_key")
      Secret.sampleTree = [⟨11, 40, "\x22<REDACTED>\x22", .sensitiveAssignment⟩] := by
    rw [Secret.plan, hcandidates, Plan.resolve, List.mergeSort_of_pairwise (by decide)]
    rfl
  have hplans : lateSession.plansSinceReset []
      [.sanitize (Secret.sampleCode "clé_key") " JavaScript", .getStats,
        .sanitize (Secret.sampleCode "clé_key") " JavaScript"] =
          [Secret.plan (Shape.ofLanguage .javascript) {} (Secret.sampleSource "clé_key")
            Secret.sampleTree] := by rfl
  have htell := (@course_stats _ lateSession rfl [.sanitize (Secret.sampleCode "clé_key") " JavaScript",
    .getStats, .sanitize (Secret.sampleCode "clé_key") " JavaScript"]).1
  rw [hplans, hplan] at htell
  exact ⟨rfl, htell⟩

end Session

end Redact
