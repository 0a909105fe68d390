/-
# Frames that end at a doubled separator

A reader keeps what it has received in a buffer, cuts off every frame that is complete, and
leaves the rest for the next chunk.  A cut does not depend on what comes later (`cut_append`),
so it makes no difference where the chunks end (`drain_append`): the frames are those of the
whole text, and a frame is cut off when its last separator is there and not before.

A frame is made of lines, none of them empty and none with a separator in it; the lines are
joined by one separator.
-/
import Mathlib.Data.List.Basic

namespace Framing

variable {α : Type*} [DecidableEq α] (sep : α)

/-- The text before the first doubled separator, and the text after it. -/
def cut : List α → Option (List α × List α)
  | a :: b :: rest =>
    if a = sep ∧ b = sep then some ([], rest)
    else (cut (b :: rest)).map fun parts => (a :: parts.1, parts.2)
  | _ => none

variable {sep}

/-- **A cut stays where it is** when more text arrives. -/
theorem cut_append : ∀ {text frame rest : List α} (more : List α),
    cut sep text = some (frame, rest) → cut sep (text ++ more) = some (frame, rest ++ more)
  | [], _, _, _, h => by cases h
  | [_], _, _, _, h => by cases h
  | a :: b :: text, frame, rest, more, h => by
    simp only [cut, List.cons_append] at h ⊢
    by_cases hsep : a = sep ∧ b = sep
    · rw [if_pos hsep] at h ⊢
      cases h
      rfl
    · rw [if_neg hsep] at h ⊢
      obtain ⟨⟨frame', rest'⟩, hcut, hparts⟩ := Option.map_eq_some_iff.mp h
      cases hparts
      have ih := cut_append more hcut
      rw [List.cons_append] at ih
      rw [ih]
      rfl

theorem eq_of_cut : ∀ {text frame rest : List α}, cut sep text = some (frame, rest) →
    text = frame ++ sep :: sep :: rest
  | [], _, _, h => by cases h
  | [_], _, _, h => by cases h
  | a :: b :: text, frame, rest, h => by
    simp only [cut] at h
    by_cases hsep : a = sep ∧ b = sep
    · rw [if_pos hsep] at h
      cases h
      rw [hsep.1, hsep.2]
      rfl
    · rw [if_neg hsep] at h
      obtain ⟨⟨frame', rest'⟩, hcut, hparts⟩ := Option.map_eq_some_iff.mp h
      cases hparts
      rw [eq_of_cut hcut]
      rfl

theorem length_lt_of_cut {text frame rest : List α} (h : cut sep text = some (frame, rest)) :
    rest.length < text.length := by
  rw [eq_of_cut h, List.length_append, List.length_cons, List.length_cons]
  omega

variable (sep)

/-- The complete frames of a text, and what is left of it. -/
def drain (text : List α) : List (List α) × List α :=
  match h : cut sep text with
  | some (frame, rest) =>
    have := length_lt_of_cut h
    let (frames, left) := drain rest
    (frame :: frames, left)
  | none => ([], text)
termination_by text.length

variable {sep}

theorem drain_of_cut {text frame rest : List α} (h : cut sep text = some (frame, rest)) :
    drain sep text = (frame :: (drain sep rest).1, (drain sep rest).2) := by
  rw [drain]
  split
  · rename_i frame' rest' h'
    rw [h] at h'
    cases h'
    rfl
  · rename_i h'
    rw [h] at h'
    cases h'

theorem drain_of_none {text : List α} (h : cut sep text = none) : drain sep text = ([], text) := by
  rw [drain]
  split
  · rename_i h'
    rw [h] at h'
    cases h'
  · rfl

/-- What is left has no complete frame. -/
theorem cut_left (text : List α) : cut sep (drain sep text).2 = none := by
  induction text using drain.induct sep with
  | case1 text frame rest hcut _ _ _ _ ih =>
    rw [drain_of_cut hcut]
    exact ih
  | case2 text hcut => rwa [drain_of_none hcut]

/-- **Where a chunk ends makes no difference.** -/
theorem drain_append (text more : List α) : drain sep (text ++ more) =
    ((drain sep text).1 ++ (drain sep ((drain sep text).2 ++ more)).1,
      (drain sep ((drain sep text).2 ++ more)).2) := by
  induction text using drain.induct sep with
  | case1 text frame rest hcut _ _ _ _ ih =>
    rw [drain_of_cut (cut_append more hcut), drain_of_cut hcut, ih]
    rfl
  | case2 text hcut => rw [drain_of_none hcut, List.nil_append]

/-! ## The frames of a text -/

/-- Lines that make up a frame. -/
def Lines (sep : α) (lines : List (List α)) : Prop :=
  lines ≠ [] ∧ ∀ line ∈ lines, line ≠ [] ∧ sep ∉ line

/-- The text of a frame. -/
def frame (sep : α) (lines : List (List α)) : List α := [sep].intercalate lines ++ [sep, sep]

/-- A text without separators is carried over. -/
theorem cut_line (text : List α) : ∀ {line : List α}, sep ∉ line →
    cut sep (line ++ text) = (cut sep text).map fun parts => (line ++ parts.1, parts.2)
  | [], _ => by simp
  | a :: line, h => by
    have ha : a ≠ sep := fun heq => h (heq ▸ List.mem_cons_self)
    have ih := cut_line text fun hmem => h (List.mem_cons_of_mem a hmem)
    have hnot : ∀ b, ¬ (a = sep ∧ b = sep) := fun b hb => ha hb.1
    have hcons : ∀ rest, cut sep (a :: rest) =
        (cut sep rest).map fun parts => (a :: parts.1, parts.2) := by
      intro rest
      cases rest with
      | nil => rfl
      | cons b rest => rw [cut, if_neg (hnot b)]
    rw [List.cons_append, hcons, ih, Option.map_map]
    rfl

/-- **A frame is cut off whole.** -/
theorem cut_frame : ∀ {lines : List (List α)}, Lines sep lines → ∀ rest : List α,
    cut sep (frame sep lines ++ rest) = some ([sep].intercalate lines, rest)
  | [], h, _ => absurd rfl h.1
  | [line], h, rest => by
    have hline := (h.2 line List.mem_cons_self).2
    rw [frame, List.intercalate_singleton, List.append_assoc, cut_line _ hline]
    simp [cut]
  | line :: line' :: lines, h, rest => by
    have hline := (h.2 line List.mem_cons_self).2
    have hrest : Lines sep (line' :: lines) :=
      ⟨List.cons_ne_nil _ _, fun l hl => h.2 l (List.mem_cons_of_mem line hl)⟩
    obtain ⟨hne, hnot⟩ := h.2 line' (List.mem_cons_of_mem line List.mem_cons_self)
    obtain ⟨b, line', rfl⟩ := List.exists_cons_of_ne_nil hne
    have hb : b ≠ sep := fun heq => hnot (heq ▸ List.mem_cons_self)
    have ih := cut_frame hrest rest
    have hsplit : frame sep (line :: (b :: line') :: lines) ++ rest =
        line ++ sep :: (frame sep ((b :: line') :: lines) ++ rest) := by
      simp only [frame, List.intercalate_cons_cons, List.append_assoc, List.cons_append,
        List.nil_append]
    have hhead : frame sep ((b :: line') :: lines) ++ rest =
        b :: (frame sep (line' :: lines) ++ rest) := by
      simp only [frame, List.intercalate_cons_cons_left, List.cons_append]
    rw [hsplit, cut_line _ hline, hhead, cut, if_neg fun hsep => hb hsep.2, ← hhead, ih]
    simp [List.intercalate_cons_cons]

theorem drain_frame {lines : List (List α)} (h : Lines sep lines) (rest : List α) :
    drain sep (frame sep lines ++ rest) =
      ([sep].intercalate lines :: (drain sep rest).1, (drain sep rest).2) :=
  drain_of_cut (cut_frame h rest)

/-- **Nothing of a frame is cut off early.** -/
theorem drain_of_shorter {lines : List (List α)} (h : Lines sep lines) {text rest : List α}
    (hshort : text.length < (frame sep lines).length) (hpre : text <+: frame sep lines ++ rest) :
    drain sep text = ([], text) := by
  refine drain_of_none ?_
  rcases hcut : cut sep text with _ | ⟨first, left⟩
  · rfl
  · -- the frame would end within the text
    obtain ⟨more, hmore⟩ := hpre
    have hlong := cut_append more hcut
    rw [hmore, cut_frame h rest, Option.some.injEq, Prod.mk.injEq] at hlong
    obtain ⟨rfl, -⟩ := hlong
    have hlength := congrArg List.length (eq_of_cut hcut)
    simp only [frame, List.length_append, List.length_cons, List.length_nil] at hshort hlength
    omega

end Framing
