import Redact.Proofs.Text.Lower
import Redact.Proofs.Text.Search
import Redact.Proofs.Text.Utf8
import Redact.Text.Raw

/-! # Texts with lone surrogates

A text without lone surrogates is its characters (`ofList_chars`), and its bytes are read back as these.
Trimming and lowercase take lone surrogates as they are, so a text that was trimmed and put in lowercase
stays as it is when this is done again (`trim_lower_trim`, `lower_lower`). Without a capital sigma, the
lowercase form of a text is a part of the lowercase form of any text around it (`lower_infix`). -/

namespace Redact.RawText

open Text

/-! ### Characters and bytes -/

theorem mem_ofList {c : Char} {cs : List Char} : Letter.char c ∈ ofList cs ↔ c ∈ cs :=
  List.mem_map_of_injective fun _ _ => Letter.char.inj

theorem chars_ofList (cs : List Char) : (ofList cs).chars = cs := by
  simp only [chars, ofList, List.filterMap_map, Function.comp_def, Letter.char?, List.filterMap_some]

theorem chars_append (t u : RawText) : chars (t ++ u) = t.chars ++ u.chars :=
  List.filterMap_append

theorem isPlain_ofList (cs : List Char) : (ofList cs).isPlain = true := by
  simp [isPlain, ofList, Letter.char?]

theorem isPlain_append (t u : RawText) : isPlain (t ++ u) = (t.isPlain && u.isPlain) :=
  List.all_append

theorem ofList_chars {t : RawText} (h : t.isPlain = true) : ofList t.chars = t := by
  induction t with
  | nil => rfl
  | cons l rest ih =>
    obtain ⟨hl, hrest⟩ := Bool.and_eq_true_iff.1 (List.all_cons.symm.trans h)
    cases l with
    | char c => exact congrArg (Letter.char c :: ·) (ih hrest)
    | lone s => exact absurd hl Bool.false_ne_true

theorem bytes_append (t u : RawText) : bytes (t ++ u) = t.bytes ++ u.bytes := by
  rw [bytes, chars_append, Utf8.encode_append, bytes, bytes]

theorem bytes_ofList (cs : List Char) : (ofList cs).bytes = Utf8.encode cs := by
  rw [bytes, chars_ofList]

theorem encode?_of_plain {t : RawText} (h : t.isPlain = true) : t.encode? = some t.bytes :=
  if_pos h

theorem encode?_eq_none_iff {t : RawText} : t.encode? = none ↔ t.isPlain = false := by
  simp [encode?]

theorem encode?_ofList (cs : List Char) : (ofList cs).encode? = some (Utf8.encode cs) := by
  rw [encode?_of_plain (isPlain_ofList cs), bytes_ofList]

theorem exists_of_encode? {t : RawText} {source : List UInt8} (h : t.encode? = some source) :
    ∃ cs, t = ofList cs ∧ source = Utf8.encode cs := by
  obtain ⟨hplain, hbytes⟩ := Option.ite_some_none_eq_some.1 h
  exact ⟨t.chars, (ofList_chars hplain).symm, hbytes.symm⟩

theorem decode?_bytes {t : RawText} (h : t.isPlain = true) :
    (Utf8.decode? t.bytes).map ofList = some t := by
  rw [bytes, Utf8.decode?_encode, Option.map_some, ofList_chars h]

/-! ### Blank letters -/

/-- A text of blank letters only. -/
def Blank (t : RawText) : Prop := ∀ l ∈ t, l.isBlank = true

instance (t : RawText) : Decidable (Blank t) := inferInstanceAs (Decidable (∀ l ∈ t, l.isBlank = true))

theorem trim_trim (t : RawText) : t.trim.trim = t.trim := trimBoth_trimBoth Letter.isBlank t

theorem trim_eq_nil_iff {t : RawText} : t.trim = [] ↔ t.Blank := trimBoth_eq_nil_iff

/-! ### Lowercase -/

theorem isLower_of_mem_lowerAfter {before : List Char} {t : RawText} {d : Char}
    (hd : .char d ∈ lowerAfter before t) : IsLower d := by
  induction t generalizing before with
  | nil => cases hd
  | cons l rest ih =>
    cases l with
    | char c =>
      rw [lowerAfter, List.mem_append] at hd
      rcases hd with hd | hd
      · exact isLower_of_mem_lowerIn (mem_ofList.1 hd)
      · exact ih hd
    | lone s =>
      rw [lowerAfter, List.mem_cons] at hd
      exact ih (hd.resolve_left nofun)

theorem lowerAfter_of_isLower {t : RawText} (h : ∀ c, .char c ∈ t → IsLower c)
    (before : List Char) : lowerAfter before t = t := by
  induction t generalizing before with
  | nil => rfl
  | cons l rest ih =>
    have hrest := ih fun c hc => h c (List.mem_cons_of_mem _ hc)
    cases l with
    | char c =>
      have hc := h c (List.mem_cons_self ..)
      rw [lowerAfter, lowerIn_of_isLower hc, hrest]
      rfl
    | lone s => rw [lowerAfter, hrest]

theorem lower_lower (t : RawText) : t.lower.lower = t.lower :=
  lowerAfter_of_isLower (fun _ hc => isLower_of_mem_lowerAfter hc) []

/-- The lowercase form of a text begins with that of its first letter. It is not empty, and not blank
anywhere if the letter is not. -/
theorem exists_lowerAfter_cons (before : List Char) (l : Letter) (rest : RawText) :
    ∃ form before', lowerAfter before (l :: rest) = form ++ lowerAfter before' rest ∧ form ≠ [] ∧
      (l.isBlank = false → ∀ x ∈ form, x.isBlank = false) := by
  cases l with
  | char c =>
    refine ⟨ofList (lowerIn before c (firstChars rest)), c :: before, rfl, ?_, ?_⟩
    · exact mt List.map_eq_nil_iff.1 (lowerIn_ne_nil before c _)
    · intro hblank x hx
      obtain ⟨d, hd, rfl⟩ := List.mem_map.1 hx
      exact isBlank_of_mem_lowerIn hblank hd
  | lone s =>
    refine ⟨[.lone s], [], rfl, List.cons_ne_nil _ _, ?_⟩
    intro hblank x hx
    rwa [List.mem_singleton.1 hx]

theorem lower_eq_nil_iff {t : RawText} : t.lower = [] ↔ t = [] := by
  cases t with
  | nil => exact iff_of_true rfl rfl
  | cons l rest =>
    obtain ⟨form, before, hform, hne, -⟩ := exists_lowerAfter_cons [] l rest
    simp [lower, hform, hne]

/-- The lowercase form of a text begins with the one of any first part of it, in which a sigma may come
out differently. -/
theorem exists_lowerAfter_append (before : List Char) (front rest : RawText) :
    ∃ lowered before', lowerAfter before (front ++ rest) = lowered ++ lowerAfter before' rest := by
  induction front generalizing before with
  | nil => exact ⟨[], before, rfl⟩
  | cons l front ih =>
    obtain ⟨form, between, hform, -⟩ := exists_lowerAfter_cons before l (front ++ rest)
    obtain ⟨lowered, before', hlowered⟩ := ih between
    exact ⟨form ++ lowered, before', by rw [List.cons_append, hform, hlowered, List.append_assoc]⟩

/-- Without a capital sigma, each letter has the lowercase form that it has alone. -/
theorem exists_lowerAfter_of_notMem {part : RawText} (h : .char 'Σ' ∉ part) (before : List Char)
    (rest : RawText) :
    ∃ before', lowerAfter before (part ++ rest) =
      part.flatMap (fun l => lower [l]) ++ lowerAfter before' rest := by
  induction part generalizing before with
  | nil => exact ⟨before, rfl⟩
  | cons l part ih =>
    rw [List.mem_cons, not_or] at h
    rw [List.cons_append, List.flatMap_cons]
    cases l with
    | char c =>
      obtain ⟨before', hrest⟩ := ih h.2 (c :: before)
      have hc : c ≠ 'Σ' := fun hc => h.1 (congrArg Letter.char hc.symm)
      have halone : lower [.char c] = ofList (lowerIn [] c []) := List.append_nil _
      refine ⟨before', ?_⟩
      rw [lowerAfter, hrest, lowerIn_of_ne hc, halone, List.append_assoc]
    | lone s =>
      obtain ⟨before', hrest⟩ := ih h.2 []
      exact ⟨before', by rw [lowerAfter, hrest]; rfl⟩

/-- A text without a capital sigma has the same lowercase form wherever it stands. -/
theorem lower_infix {part : RawText} (h : .char 'Σ' ∉ part) (front back : RawText) :
    part.lower <:+: lower (front ++ part ++ back) := by
  obtain ⟨lowered, between, hfront⟩ := exists_lowerAfter_append [] front (part ++ back)
  obtain ⟨behind, hwithin⟩ := exists_lowerAfter_of_notMem h between back
  obtain ⟨_, halone⟩ := exists_lowerAfter_of_notMem h [] []
  rw [lowerAfter, List.append_nil, List.append_nil] at halone
  rw [lower, lower, List.append_assoc, hfront, hwithin, halone, ← List.append_assoc]
  exact List.infix_append _ _ _

theorem trim_lower_trim (t : RawText) : t.trim.lower.trim = t.trim.lower := by
  have htrimmed := trimmed_trimBoth Letter.isBlank t
  refine trimBoth_eq_self ?_ ?_
  · intro x hx
    cases htrim : t.trim with
    | nil => simp [htrim, lower, lowerAfter] at hx
    | cons l rest =>
      obtain ⟨form, before, hform, hne, hblank⟩ := exists_lowerAfter_cons [] l rest
      rw [htrim, lower, hform, List.head?_append_of_ne_nil _ hne] at hx
      have hl : l.isBlank = false := htrimmed.first l (by rw [← trim, htrim, List.head?_cons])
      exact hblank hl x (List.mem_of_head? hx)
  · intro x hx
    rcases List.eq_nil_or_concat' t.trim with htrim | ⟨front, l, htrim⟩
    · simp [htrim, lower, lowerAfter] at hx
    · obtain ⟨lowered, between, hlowered⟩ := exists_lowerAfter_append [] front [l]
      obtain ⟨form, before, hform, hne, hblank⟩ := exists_lowerAfter_cons between l []
      rw [htrim, lower, hlowered, hform, lowerAfter, List.append_nil,
        List.getLast?_append_of_ne_nil _ hne] at hx
      have hl : l.isBlank = false :=
        htrimmed.last l (by rw [← trim, htrim, List.getLast?_concat])
      exact hblank hl x (List.mem_of_getLast? hx)

theorem commaParts_eq (t : RawText) : t.commaParts = t.splitOn (.char ',') :=
  splitAt_eq_splitOn (Letter.char ',') t

end Redact.RawText
