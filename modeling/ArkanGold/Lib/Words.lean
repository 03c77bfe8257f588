import Mathlib

/-!
# Texts of words

`spaced sp ws` is a text of words with the separator `sp` before each of them.

- `spaced_inj`: words without the separator are found again in the text.
- `cons_intercalate`: parts that are texts of words, joined by a word between separators, are one.
- `foldl_intercalate`: reading skips the joining word if the reader makes nothing of it.
-/

namespace ArkanGold

namespace Words

variable {α β σ : Type} {sp : α}

/-- The words, each after a separator. -/
def spaced (sp : α) (ws : List (List α)) : List α := ws.flatMap (sp :: ·)

@[simp] theorem spaced_nil (sp : α) : spaced sp [] = [] := rfl

@[simp] theorem spaced_cons (sp : α) (w : List α) (ws : List (List α)) :
    spaced sp (w :: ws) = sp :: (w ++ spaced sp ws) := rfl

@[simp] theorem spaced_append (sp : α) (us ws : List (List α)) :
    spaced sp (us ++ ws) = spaced sp us ++ spaced sp ws := List.flatMap_append

/-- Where a word ends. -/
theorem word_append_inj {u w : List α} {us ws : List (List α)} (hu : sp ∉ u) (hw : sp ∉ w)
    (h : u ++ spaced sp us = w ++ spaced sp ws) : u = w ∧ spaced sp us = spaced sp ws := by
  induction u generalizing w with
  | nil =>
    cases w with
    | nil => exact ⟨rfl, h⟩
    | cons c w =>
      cases us with
      | nil => cases h
      | cons v us => exact absurd (List.cons.inj h).1 (fun hc => hw (hc ▸ List.mem_cons_self))
  | cons c u ih =>
    cases w with
    | nil =>
      cases ws with
      | nil => cases h
      | cons v ws => exact absurd (List.cons.inj h).1 (fun hc => hu (hc ▸ List.mem_cons_self))
    | cons d w =>
      obtain ⟨rfl, hrest⟩ := List.cons.inj h
      obtain ⟨rfl, hspaced⟩ := ih (fun hc => hu (List.mem_cons_of_mem c hc))
        (fun hc => hw (List.mem_cons_of_mem c hc)) hrest
      exact ⟨rfl, hspaced⟩

/-- The words of a text. -/
theorem spaced_inj {us ws : List (List α)} (hus : ∀ u ∈ us, sp ∉ u) (hws : ∀ w ∈ ws, sp ∉ w)
    (h : spaced sp us = spaced sp ws) : us = ws := by
  induction us generalizing ws with
  | nil =>
    cases ws with
    | nil => rfl
    | cons w ws => cases h
  | cons u us ih =>
    cases ws with
    | nil => cases h
    | cons w ws =>
      obtain ⟨hu, hus'⟩ := List.forall_mem_cons.mp hus
      obtain ⟨hw, hws'⟩ := List.forall_mem_cons.mp hws
      obtain ⟨rfl, hrest⟩ := word_append_inj hu hw (List.cons.inj h).2
      rw [ih hus' hws' hrest]

/-- Parts that are texts of words, joined by a word. -/
theorem cons_intercalate {f : β → List α} {words : β → List (List α)} (w : List α) {xs : List β}
    (hne : xs ≠ []) (h : ∀ x ∈ xs, sp :: f x = spaced sp (words x)) :
    sp :: List.intercalate (sp :: (w ++ [sp])) (xs.map f) =
      spaced sp (List.intercalate [w] (xs.map words)) := by
  induction xs with
  | nil => exact absurd rfl hne
  | cons x xs ih =>
    obtain ⟨hx, hxs⟩ := List.forall_mem_cons.mp h
    cases xs with
    | nil => simpa using hx
    | cons y ys =>
      have hrest := ih (List.cons_ne_nil y ys) hxs
      simp only [List.map_cons] at hrest ⊢
      rw [List.intercalate_cons_cons, List.intercalate_cons_cons, spaced_append, spaced_append,
        ← hrest, ← hx]
      simp

/-- What holds of the words of the parts and of the joining word holds of all. -/
theorem forall_mem_intercalate {p : List α → Prop} {w : List α} {wss : List (List (List α))}
    (hw : p w) (h : ∀ ws ∈ wss, ∀ u ∈ ws, p u) : ∀ u ∈ List.intercalate [w] wss, p u := by
  induction wss with
  | nil => exact fun u hu => absurd hu List.not_mem_nil
  | cons ws wss ih =>
    obtain ⟨hws, hrest⟩ := List.forall_mem_cons.mp h
    cases wss with
    | nil => simpa using hws
    | cons ws' wss =>
      rw [List.intercalate_cons_cons]
      refine List.forall_mem_append.mpr ⟨List.forall_mem_append.mpr ⟨hws, ?_⟩, ih hrest⟩
      exact fun u hu => List.mem_singleton.mp hu ▸ hw

/-- A reader that makes nothing of the joining word. -/
theorem foldl_intercalate {f : σ → List α → σ} {w : List α} (h : ∀ r, f r w = r)
    (r : σ) (wss : List (List (List α))) :
    (List.intercalate [w] wss).foldl f r = wss.flatten.foldl f r := by
  induction wss generalizing r with
  | nil => rfl
  | cons ws wss ih =>
    cases wss with
    | nil => simp
    | cons ws' wss =>
      rw [List.intercalate_cons_cons, List.foldl_append, List.foldl_append, List.foldl_cons,
        List.foldl_nil, h, ih]
      exact List.foldl_append.symm

end Words

end ArkanGold
