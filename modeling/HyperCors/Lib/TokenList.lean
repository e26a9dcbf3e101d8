/-
HyperCors.Lib.TokenList — lists of tokens written as one string: split at
a separator, trim the blanks at both ends, drop the empty elements.

`tokens sep ws l` reads such a list, `elements sep ws l` keeps the empty
elements. `Clean` says what a token that was read looks like: not empty,
free of the separator, nothing left to trim. The two facts everything
rests on are

* `tokens_append_sep` — reading two lists joined by a separator reads the
  one and then the other;
* `elements_intercalate`, `tokens_intercalate` — reading is the left
  inverse of joining clean tokens, with or without blanks behind the
  separator.

`foldl_joinOnto` is the writer that joins as it goes, and
`exists_mem_tokens_of_splitOn` reads a list whose elements are lists
themselves. The alphabet, the separator and the blanks are parameters.
-/
import Mathlib.Data.List.DropRight

namespace TokenList

variable {α : Type}

/-! ## Trimming -/

/-- Drop the blanks at both ends. -/
def trim (ws : α → Bool) (l : List α) : List α := (l.dropWhile ws).rdropWhile ws

section Trim

variable {ws : α → Bool}

@[simp] theorem trim_nil : trim ws ([] : List α) = [] := rfl

theorem trim_cons_of_blank {b : α} (h : ws b = true) (l : List α) :
    trim ws (b :: l) = trim ws l := by
  simp [trim, h]

theorem mem_of_mem_trim {b : α} {l : List α} (h : b ∈ trim ws l) : b ∈ l :=
  (List.dropWhile_suffix ws).subset ((List.rdropWhile_prefix ws _).subset h)

/-- A list whose two ends are no blanks is left alone. -/
theorem trim_eq_self {l : List α} (hhead : ∀ b ∈ l.head?, ws b = false)
    (hlast : ∀ b ∈ l.getLast?, ws b = false) : trim ws l = l := by
  have hdrop : l.dropWhile ws = l := by
    cases l with
    | nil => rfl
    | cons b l => rw [List.dropWhile_cons, if_neg (by simp [hhead b (by simp)])]
  rw [trim, hdrop, List.rdropWhile_eq_self_iff]
  intro hne
  have := hlast (l.getLast hne) (by simp [List.getLast?_eq_some_getLast hne])
  simp [this]

/-- A list without blanks is left alone. -/
theorem trim_eq_self_of_forall {l : List α} (h : ∀ b ∈ l, ws b = false) : trim ws l = l :=
  trim_eq_self (fun b hb => h b (List.mem_of_mem_head? hb))
    (fun b hb => h b (List.mem_of_mem_getLast? hb))

theorem trim_head {l : List α} : ∀ b ∈ (trim ws l).head?, ws b = false := by
  intro b hb
  obtain ⟨t, ht⟩ := List.rdropWhile_prefix ws (l.dropWhile ws)
  have hhead : (l.dropWhile ws).head? = some b := by
    rw [← ht, List.head?_append]
    unfold trim at hb
    rw [Option.mem_def.mp hb]
    rfl
  have := List.head?_dropWhile_not ws l
  simpa [hhead] using this

theorem trim_last {l : List α} : ∀ b ∈ (trim ws l).getLast?, ws b = false := by
  intro b hb
  by_cases hne : trim ws l = []
  · simp [hne] at hb
  · have := List.rdropWhile_last_not ws (l.dropWhile ws) hne
    rw [List.getLast?_eq_some_getLast hne] at hb
    simp only [Option.mem_def, Option.some.injEq] at hb
    subst hb
    simpa [trim] using this

@[simp] theorem trim_trim (l : List α) : trim ws (trim ws l) = trim ws l :=
  trim_eq_self trim_head trim_last

theorem trim_append_of_blank (l : List α) {pad : List α} (h : ∀ b ∈ pad, ws b = true) :
    trim ws (l ++ pad) = trim ws l := by
  induction pad using List.reverseRecOn with
  | nil => simp
  | append_singleton pad b ih =>
    rw [← ih fun c hc => h c (by simp [hc]), ← List.append_assoc]
    generalize l ++ pad = m
    have hb := h b (by simp)
    unfold trim
    by_cases hm : ∀ c ∈ m, ws c = true
    · have hdrop' : m.dropWhile ws = [] := List.dropWhile_eq_nil_iff.mpr hm
      have hdrop : (m ++ [b]).dropWhile ws = [] := by
        rw [List.dropWhile_append, hdrop']
        simp [hb]
      rw [hdrop, hdrop']
    · have hdrop : (m ++ [b]).dropWhile ws = m.dropWhile ws ++ [b] := by
        rw [List.dropWhile_append, if_neg]
        simpa [List.dropWhile_eq_nil_iff] using hm
      rw [hdrop, List.rdropWhile_concat_pos _ _ _ hb]

/-- Trimming takes blanks off both ends. -/
theorem exists_eq_trim (ws : α → Bool) (l : List α) :
    ∃ p q, l = p ++ trim ws l ++ q ∧ (∀ b ∈ p, ws b = true) ∧ ∀ b ∈ q, ws b = true := by
  refine ⟨l.takeWhile ws, (l.dropWhile ws).rtakeWhile ws, ?_, ?_, ?_⟩
  · rw [trim, List.append_assoc, List.rdropWhile_append_rtakeWhile, List.takeWhile_append_dropWhile]
  · intro b hb
    exact List.mem_takeWhile_imp hb
  · intro b hb
    exact List.mem_rtakeWhile_imp hb

end Trim

/-! ## Clean tokens -/

/-- What a token that was read looks like. -/
structure Clean (sep : α) (ws : α → Bool) (t : List α) : Prop where
  ne_nil : t ≠ []
  no_sep : sep ∉ t
  trimmed : trim ws t = t

/-- A token without blanks and without the separator is clean. -/
theorem Clean.of_forall {sep : α} {ws : α → Bool} {t : List α} (hne : t ≠ [])
    (h : ∀ b ∈ t, b ≠ sep ∧ ws b = false) : Clean sep ws t :=
  ⟨hne, fun hsep => (h sep hsep).1 rfl, trim_eq_self_of_forall fun b hb => (h b hb).2⟩

/-! ## Writing a list -/

theorem mem_intercalate {glue : List α} {ts : List (List α)} {b : α}
    (h : b ∈ List.intercalate glue ts) : b ∈ glue ∨ ∃ t ∈ ts, b ∈ t := by
  induction ts with
  | nil => simp at h
  | cons t ts ih =>
    cases ts with
    | nil => exact Or.inr ⟨t, by simp, by simpa using h⟩
    | cons u us =>
      rw [List.intercalate_cons_cons, List.mem_append, List.mem_append] at h
      rcases h with (h | h) | h
      · exact Or.inr ⟨t, by simp, h⟩
      · exact Or.inl h
      · rcases ih h with h | ⟨v, hv, hb⟩
        · exact Or.inl h
        · exact Or.inr ⟨v, List.mem_cons_of_mem t hv, hb⟩

/-- Joining non-empty tokens gives nothing only if there are none. -/
theorem isEmpty_intercalate {glue : List α} {ts : List (List α)} (h : ∀ t ∈ ts, t ≠ []) :
    (List.intercalate glue ts).isEmpty = ts.isEmpty := by
  cases ts with
  | nil => rfl
  | cons t ts =>
    have ht := h t (by simp)
    cases ts <;> simp [List.intercalate_cons_cons, ht]

theorem length_intercalate_cons (glue t : List α) {ts : List (List α)} (h : ts ≠ []) :
    (List.intercalate glue (t :: ts)).length =
      t.length + glue.length + (List.intercalate glue ts).length := by
  cases ts with
  | nil => exact absurd rfl h
  | cons u ts => rw [List.intercalate_cons_cons, List.length_append, List.length_append]

/-- Fewer tokens, joined, are no longer. -/
theorem length_intercalate_le_of_sublist (glue : List α) {us ts : List (List α)}
    (h : us.Sublist ts) :
    (List.intercalate glue us).length ≤ (List.intercalate glue ts).length := by
  induction h with
  | slnil => exact Nat.le_refl _
  | @cons us ts t hsub ih =>
    by_cases hts : ts = []
    · rw [hts, List.sublist_nil] at hsub
      simp [hsub]
    · rw [length_intercalate_cons glue t hts]
      omega
  | @cons_cons us ts t hsub ih =>
    by_cases hus : us = []
    · subst hus
      by_cases hts : ts = []
      · simp [hts]
      · rw [length_intercalate_cons glue t hts, List.intercalate_singleton]
        omega
    · have hts : ts ≠ [] := by
        intro hnil
        rw [hnil, List.sublist_nil] at hsub
        exact hus hsub
      rw [length_intercalate_cons glue t hus, length_intercalate_cons glue t hts]
      omega

theorem intercalate_append_head (glue a t : List α) (ts : List (List α)) :
    List.intercalate glue ((a ++ glue ++ t) :: ts) = List.intercalate glue (a :: t :: ts) := by
  rw [List.intercalate_cons_cons]
  cases ts with
  | nil => simp
  | cons u ts => simp only [List.intercalate_cons_cons, List.append_assoc]

/-- Writing glue and a piece at a time joins the pieces. -/
theorem foldl_append_glue {β : Type} (glue : List α) (f : β → List α) (l : List β) (acc : List α) :
    l.foldl (fun r x => r ++ glue ++ f x) acc = List.intercalate glue (acc :: l.map f) := by
  induction l generalizing acc with
  | nil => simp
  | cons x l ih => rw [List.foldl_cons, ih, intercalate_append_head, List.map_cons]

/-- Write one more token, with glue in front unless it is the first. -/
def joinOnto (glue acc t : List α) : List α := acc ++ (if acc.isEmpty then [] else glue) ++ t

theorem foldl_joinOnto_of_ne_nil (glue : List α) (ts : List (List α)) {acc : List α}
    (h : acc ≠ []) : ts.foldl (joinOnto glue) acc = List.intercalate glue (acc :: ts) := by
  induction ts generalizing acc with
  | nil => simp
  | cons t ts ih =>
    have hstep : joinOnto glue acc t = acc ++ glue ++ t := by simp [joinOnto, h]
    rw [List.foldl_cons, hstep, ih (by simp [h]), intercalate_append_head]

/-- Writing non-empty tokens one after the other joins them. -/
theorem foldl_joinOnto (glue : List α) {ts : List (List α)} (h : ∀ t ∈ ts, t ≠ []) :
    ts.foldl (joinOnto glue) [] = List.intercalate glue ts := by
  cases ts with
  | nil => rfl
  | cons t ts =>
    have ht : joinOnto glue [] t = t := rfl
    rw [List.foldl_cons, ht, foldl_joinOnto_of_ne_nil glue ts (h t (by simp))]

/-! ## Splitting -/

variable [DecidableEq α]

theorem not_mem_of_mem_splitOn {sep : α} {l p : List α} (h : p ∈ l.splitOn sep) : sep ∉ p := by
  induction l generalizing p with
  | nil => simp_all
  | cons b l ih =>
    rw [List.splitOn_cons_eq_if_modifyHead] at h
    split at h
    · rcases List.mem_cons.mp h with rfl | h
      · simp
      · exact ih h
    · rename_i hb
      cases hs : l.splitOn sep with
      | nil => simp [hs] at h
      | cons q qs =>
        rw [hs, List.modifyHead_cons, List.mem_cons] at h
        rcases h with rfl | h
        · have hq := ih (p := q) (by simp [hs])
          have hne : b ≠ sep := by simpa using hb
          simp [hne.symm, hq]
        · exact ih (by simp [hs, h])

theorem mem_of_mem_splitOn {sep : α} {l p : List α} {b : α} (h : p ∈ l.splitOn sep)
    (hb : b ∈ p) : b ∈ l := by
  have hjoin : List.intercalate [sep] (l.splitOn sep) = l := List.intercalate_splitOn sep
  rw [← hjoin]
  generalize l.splitOn sep = ps at h
  induction ps with
  | nil => simp at h
  | cons q qs ih =>
    cases qs with
    | nil =>
      rw [List.mem_singleton] at h
      simpa [← h] using hb
    | cons r rs =>
      rw [List.intercalate_cons_cons]
      rcases List.mem_cons.mp h with rfl | h
      · simp [hb]
      · simp [ih h]

/-! ## Reading a list -/

variable (sep : α) (ws : α → Bool)

/-- The elements of a list, trimmed. -/
def elements (l : List α) : List (List α) := (l.splitOn sep).map (trim ws)

/-- The non-empty elements of a list, trimmed. -/
def tokens (l : List α) : List (List α) :=
  ((l.splitOn sep).map (trim ws)).filter fun t => !t.isEmpty

variable {sep ws}

theorem tokens_eq_filter (l : List α) :
    tokens sep ws l = (elements sep ws l).filter fun t => !t.isEmpty := rfl

@[simp] theorem tokens_nil : tokens sep ws [] = [] := rfl

theorem mem_tokens {l t : List α} :
    t ∈ tokens sep ws l ↔ t ≠ [] ∧ ∃ p ∈ l.splitOn sep, trim ws p = t := by
  simp only [tokens, List.mem_filter, List.mem_map, Bool.not_eq_true', List.isEmpty_eq_false_iff]
  exact and_comm

theorem clean_of_mem_tokens {l t : List α} (h : t ∈ tokens sep ws l) : Clean sep ws t := by
  obtain ⟨hne, p, hp, rfl⟩ := mem_tokens.mp h
  exact ⟨hne, fun hsep => not_mem_of_mem_splitOn hp (mem_of_mem_trim hsep), trim_trim p⟩

theorem mem_of_mem_tokens {l t : List α} {b : α} (h : t ∈ tokens sep ws l) (hb : b ∈ t) :
    b ∈ l := by
  obtain ⟨_, p, hp, rfl⟩ := mem_tokens.mp h
  exact mem_of_mem_splitOn hp (mem_of_mem_trim hb)

theorem Clean.tokens_eq {t : List α} (h : Clean sep ws t) : tokens sep ws t = [t] := by
  simp [tokens, List.splitOn_eq_singleton h.no_sep, h.trimmed, h.ne_nil]

theorem tokens_append_sep (a b : List α) :
    tokens sep ws (a ++ sep :: b) = tokens sep ws a ++ tokens sep ws b := by
  simp [tokens, List.splitOn_append_cons_self]

theorem elements_cons_of_blank {b : α} (hb : ws b = true) (hsep : b ≠ sep) (l : List α) :
    elements sep ws (b :: l) = elements sep ws l := by
  rw [elements, List.splitOn_cons_eq_if_modifyHead, if_neg (by simpa using hsep)]
  cases hs : l.splitOn sep with
  | nil => exact absurd hs (by simp)
  | cons p ps => simp [elements, hs, trim_cons_of_blank hb]

/-- Blanks that may follow a separator. -/
def IsPad (sep : α) (ws : α → Bool) (pad : List α) : Prop := ∀ b ∈ pad, ws b = true ∧ b ≠ sep

theorem elements_pad_append {pad : List α} (hpad : IsPad sep ws pad) (l : List α) :
    elements sep ws (pad ++ l) = elements sep ws l := by
  induction pad with
  | nil => rfl
  | cons b pad ih =>
    have hb := hpad b (by simp)
    rw [List.cons_append, elements_cons_of_blank hb.1 hb.2,
      ih fun c hc => hpad c (List.mem_cons_of_mem b hc)]

theorem tokens_pad_append {pad : List α} (hpad : IsPad sep ws pad) (l : List α) :
    tokens sep ws (pad ++ l) = tokens sep ws l := by
  rw [tokens_eq_filter, elements_pad_append hpad, tokens_eq_filter]

theorem Clean.elements_append_glue {t pad : List α} (ht : Clean sep ws t)
    (hpad : IsPad sep ws pad) (l : List α) :
    elements sep ws (t ++ (sep :: pad) ++ l) = t :: elements sep ws l := by
  rw [List.append_assoc, List.cons_append, elements, List.splitOn_append_cons_self,
    List.splitOn_eq_singleton ht.no_sep, List.map_append, List.map_singleton, ht.trimmed]
  exact congrArg (t :: ·) (elements_pad_append hpad l)

/-- Reading the elements undoes joining, once there is one. -/
theorem elements_intercalate {pad : List α} (hpad : IsPad sep ws pad) {ts : List (List α)}
    (hne : ts ≠ []) (h : ∀ t ∈ ts, Clean sep ws t) :
    elements sep ws (List.intercalate (sep :: pad) ts) = ts := by
  induction ts with
  | nil => exact absurd rfl hne
  | cons t ts ih =>
    have ht := h t (by simp)
    cases ts with
    | nil => simp [elements, List.splitOn_eq_singleton ht.no_sep, ht.trimmed]
    | cons u us =>
      have hts := ih (by simp) fun v hv => h v (List.mem_cons_of_mem t hv)
      rw [List.intercalate_cons_cons, ht.elements_append_glue hpad, hts]

/-- Reading undoes joining. -/
theorem tokens_intercalate {pad : List α} (hpad : IsPad sep ws pad) {ts : List (List α)}
    (h : ∀ t ∈ ts, Clean sep ws t) :
    tokens sep ws (List.intercalate (sep :: pad) ts) = ts := by
  cases ts with
  | nil => rfl
  | cons t ts =>
    rw [tokens_eq_filter, elements_intercalate hpad (by simp) h, List.filter_eq_self]
    intro u hu
    simpa using (h u hu).ne_nil

/-! ## Elements -/

/-- Induction along the separators: a list without one, or what is before
the first one and what is behind it. -/
@[elab_as_elim]
theorem elements_induction (sep : α) {P : List α → Prop} (single : ∀ l, sep ∉ l → P l)
    (cons : ∀ a b, sep ∉ a → P b → P (a ++ sep :: b)) (l : List α) : P l := by
  by_cases h : sep ∈ l
  · obtain ⟨a, b, rfl, ha⟩ := List.eq_append_cons_of_mem h
    exact cons a b ha (elements_induction sep single cons b)
  · exact single l h
termination_by l.length
decreasing_by subst_vars; simp; omega

/-- A list without a separator is one element. -/
theorem tokens_of_no_sep {l : List α} (h : sep ∉ l) :
    tokens sep ws l = if trim ws l = [] then [] else [trim ws l] := by
  rw [tokens, List.splitOn_eq_singleton h]
  by_cases ht : trim ws l = [] <;> simp [ht]

theorem tokens_append_pad (l : List α) {pad : List α} (hpad : IsPad sep ws pad) :
    tokens sep ws (l ++ pad) = tokens sep ws l := by
  induction l using elements_induction sep with
  | single l h =>
    have hsep : sep ∉ l ++ pad := by
      simpa [h] using fun hmem => (hpad sep hmem).2 rfl
    rw [tokens_of_no_sep hsep, tokens_of_no_sep h,
      trim_append_of_blank l fun b hb => (hpad b hb).1]
  | cons a b _ ih =>
    rw [List.append_assoc, List.cons_append, tokens_append_sep, tokens_append_sep, ih]

/-- A clean token between blanks is read as it is. -/
theorem Clean.mem_tokens {u p q : List α} (hu : Clean sep ws u) (hp : IsPad sep ws p)
    (hq : IsPad sep ws q) : u ∈ tokens sep ws (p ++ u ++ q) := by
  rw [tokens_append_pad _ hq, tokens_pad_append hp, hu.tokens_eq]
  exact List.mem_singleton_self u

theorem tokens_trim (hsep : ws sep = false) (l : List α) :
    tokens sep ws (trim ws l) = tokens sep ws l := by
  have hpad : ∀ pad : List α, (∀ b ∈ pad, ws b = true) → IsPad sep ws pad := by
    intro pad h b hb
    refine ⟨h b hb, ?_⟩
    intro e
    rw [e] at hb
    exact absurd (h sep hb) (by simp [hsep])
  obtain ⟨p, q, hl, hp, hq⟩ := exists_eq_trim ws l
  conv => rhs; rw [hl]
  rw [tokens_append_pad _ (hpad q hq), tokens_pad_append (hpad p hp)]

theorem trim_ne_nil_of_mem_tokens (hsep : ws sep = false) {l u : List α}
    (h : u ∈ tokens sep ws l) : trim ws l ≠ [] := by
  intro hnil
  rw [← tokens_trim hsep, hnil] at h
  simp at h

/-! ## Lists in lists

A list may be split at a blank first and at its separator afterwards. -/

section Nested

variable {c : α} (hc : ws c = true) (hcsep : c ≠ sep) {u : List α} (hu : ∀ x ∈ u, ws x = false)
include hc hcsep hu

/-- A token without blanks lies on one side of a blank. -/
theorem mem_tokens_of_append_blank_single {a b : List α} (ha : sep ∉ a) (hb : sep ∉ b)
    (h : u ∈ tokens sep ws (a ++ c :: b)) : u ∈ tokens sep ws a ∨ u ∈ tokens sep ws b := by
  have hclean := clean_of_mem_tokens h
  have hs : sep ∉ a ++ c :: b := by simp [ha, hb, hcsep.symm]
  have htrim : trim ws (a ++ c :: b) = u := by
    rw [tokens_of_no_sep hs] at h
    split at h
    · simp at h
    · exact (List.mem_singleton.mp h).symm
  have hcu : c ∉ u := fun hmem => absurd hc (by simp [hu c hmem])
  obtain ⟨p, q, heq, hp, hq⟩ := exists_eq_trim ws (a ++ c :: b)
  rw [htrim] at heq
  have hpad : ∀ pad : List α, (∀ x ∈ pad, ws x = true) → sep ∉ pad → IsPad sep ws pad :=
    fun pad hws hno x hx => ⟨hws x hx, fun e => hno (e ▸ hx)⟩
  have hps : sep ∉ p := fun hmem => hs (by simp [heq, hmem])
  have hqs : sep ∉ q := fun hmem => hs (by simp [heq, hmem])
  -- the blank `c` stands before `u` or behind it
  rcases List.append_eq_append_iff.mp heq with ⟨r, hpu, hr⟩ | ⟨r, hau, hr⟩
  · cases r with
    | nil =>
      left
      have := hclean.mem_tokens (hpad p hp hps) (hpad [] (by simp) (by simp))
      rwa [hpu, List.append_nil, List.append_nil] at this
    | cons d r =>
      obtain ⟨rfl, rfl⟩ := List.cons_eq_cons.mp hr
      rcases List.append_eq_append_iff.mp hpu with ⟨t, _, ht⟩ | ⟨t, ht, hru⟩
      · exact absurd (by simp [ht]) hcu
      · right
        cases t with
        | nil => exact absurd (by simp [← show c :: r = u from hru]) hcu
        | cons d t =>
          obtain ⟨rfl, rfl⟩ := List.cons_eq_cons.mp hru
          refine hclean.mem_tokens (hpad t (fun x hx => hp x ?_) fun hx => hps ?_) (hpad q hq hqs)
          · simp [ht, hx]
          · simp [ht, hx]
  · left
    rw [hau]
    refine hclean.mem_tokens (hpad p hp hps) (hpad r (fun x hx => hq x ?_) fun hx => hqs ?_)
    · simp [hr, hx]
    · simp [hr, hx]

theorem mem_tokens_of_append_blank {a b : List α} (h : u ∈ tokens sep ws (a ++ c :: b)) :
    u ∈ tokens sep ws a ∨ u ∈ tokens sep ws b := by
  induction a using elements_induction sep with
  | cons a₁ a₂ _ ih =>
    rw [List.append_assoc, List.cons_append, tokens_append_sep, List.mem_append] at h
    rw [tokens_append_sep, List.mem_append, or_assoc]
    exact h.imp_right ih
  | single a ha =>
    by_cases hb : sep ∈ b
    · obtain ⟨b₁, b₂, rfl, hb₁⟩ := List.eq_append_cons_of_mem hb
      rw [← List.cons_append, ← List.append_assoc, tokens_append_sep, List.mem_append] at h
      rw [tokens_append_sep, List.mem_append, ← or_assoc]
      exact h.imp_left (mem_tokens_of_append_blank_single hc hcsep hu ha hb₁)
    · exact mem_tokens_of_append_blank_single hc hcsep hu ha hb h

/-- Splitting at a blank first, a token without blanks is found in one of
the pieces. -/
theorem exists_mem_tokens_of_splitOn (hsep : ws sep = false) {l : List α}
    (h : u ∈ tokens sep ws l) : ∃ t ∈ tokens c ws l, u ∈ tokens sep ws t := by
  induction l using elements_induction c with
  | single l hl =>
    rw [tokens_of_no_sep hl, if_neg (trim_ne_nil_of_mem_tokens hsep h)]
    exact ⟨trim ws l, List.mem_singleton_self _, by rwa [tokens_trim hsep]⟩
  | cons a b ha ih =>
    rw [tokens_append_sep]
    rcases mem_tokens_of_append_blank hc hcsep hu h with h | h
    · rw [tokens_of_no_sep ha, if_neg (trim_ne_nil_of_mem_tokens hsep h)]
      exact ⟨trim ws a, by simp, by rwa [tokens_trim hsep]⟩
    · obtain ⟨t, ht, hut⟩ := ih h
      exact ⟨t, List.mem_append_right _ ht, hut⟩

end Nested

end TokenList
