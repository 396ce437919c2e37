/-
# `Proofs.Text.Lower` — lower-casing piece by piece

Every character but the capital sigma is lower-cased on its own, so a piece of a text
is lower-cased inside it (`lowerWithin`) as it is alone, except for its sigmas:

    lowerWithin before after piece = lowerChars piece
      ⟺  each sigma of the piece turns into the same letter inside the text and in
         the piece alone                                (`lowerWithin_eq_lowerChars_iff`)

What a sigma turns into depends on the letters next to it.  The marks of a pattern are
no letters, nor are they passed over, so at a mark the look for letters ends: marks
around a piece leave it alone (`lowerChars_between`), one mark does for another
(`lowerChars_map`), and none comes or goes (`countP_lowerChars`).
-/
import RecordFilter.Text.Lower

namespace RecordFilter.Text

/-! ## Pieces of a text -/

/-- The lower-case form of a piece, between the characters before it, the nearest
first, and those after it. -/
def lowerWithin (before after : List Char) : List Char → List Char
  | [] => []
  | c :: rest =>
    (if c = 'Σ' then [lowerSigma before (rest ++ after)] else lowerChar c) ++
      lowerWithin (c :: before) after rest

theorem lowerAfter_append (before piece after : List Char) :
    lowerAfter before (piece ++ after) =
      lowerWithin before after piece ++ lowerAfter (piece.reverse ++ before) after := by
  induction piece generalizing before with
  | nil => rfl
  | cons c piece ih =>
      rw [List.cons_append, lowerAfter, ih, lowerWithin, List.append_assoc, List.reverse_cons,
        List.append_assoc]
      rfl

@[simp]
theorem lowerWithin_nil (before piece : List Char) :
    lowerWithin before [] piece = lowerAfter before piece := by
  induction piece generalizing before with
  | nil => rfl
  | cons c piece ih => rw [lowerWithin, lowerAfter, ih, List.append_nil]

/-- What stands around a piece does not change how long it becomes. -/
@[simp]
theorem length_lowerWithin (before after piece : List Char) :
    (lowerWithin before after piece).length = (lowerChars piece).length := by
  have hall : ∀ before', (lowerWithin before after piece).length =
      (lowerAfter before' piece).length := by
    induction piece generalizing before with
    | nil => exact fun _ => rfl
    | cons c piece ih =>
        intro before'
        rw [lowerWithin, lowerAfter, List.length_append, List.length_append,
          ih (c :: before) (c :: before')]
        split <;> rfl
  exact hall []

/-- Each sigma of a piece turns into the same letter between what comes before, the
nearest first, and what comes after, as in the piece alone. -/
def KeepsSigmas (before after piece : List Char) : Prop :=
  ∀ front back, piece = front ++ 'Σ' :: back →
    lowerSigma (front.reverse ++ before) (back ++ after) = lowerSigma front.reverse back

theorem forall_sigma_cons_iff {c : Char} {piece : List Char} {P : List Char → List Char → Prop} :
    (∀ front back, c :: piece = front ++ 'Σ' :: back → P front back) ↔
      (c = 'Σ' → P [] piece) ∧
        ∀ front back, piece = front ++ 'Σ' :: back → P (c :: front) back := by
  constructor
  · intro h
    refine ⟨fun hc => h [] piece (congrArg (· :: piece) hc), fun front back hpiece => ?_⟩
    exact h (c :: front) back (congrArg (c :: ·) hpiece)
  · rintro ⟨hfirst, hrest⟩ front back hpiece
    cases front with
    | nil =>
        obtain ⟨hc, rfl⟩ := List.cons.inj hpiece
        exact hfirst hc
    | cons d front =>
        obtain ⟨rfl, htail⟩ := List.cons.inj hpiece
        exact hrest front back htail

/-- **Only its sigmas can make a piece of a text other than it is alone.** -/
theorem lowerWithin_eq_lowerChars_iff {before after piece : List Char} :
    lowerWithin before after piece = lowerChars piece ↔ KeepsSigmas before after piece := by
  -- `x` is what of the piece has been read, the nearest first
  have hall : ∀ x : List Char, lowerWithin (x ++ before) after piece = lowerWithin x [] piece ↔
      ∀ front back, piece = front ++ 'Σ' :: back →
        lowerSigma (front.reverse ++ (x ++ before)) (back ++ after) =
          lowerSigma (front.reverse ++ x) back := by
    induction piece with
    | nil => simp [lowerWithin]
    | cons c piece ih =>
        intro x
        have hlater : lowerWithin (c :: (x ++ before)) after piece = lowerWithin (c :: x) [] piece ↔
            ∀ front back, piece = front ++ 'Σ' :: back →
              lowerSigma ((c :: front).reverse ++ (x ++ before)) (back ++ after) =
                lowerSigma ((c :: front).reverse ++ x) back := by
          simp only [List.reverse_cons, List.append_assoc, List.singleton_append]
          exact ih (c :: x)
        rw [forall_sigma_cons_iff, lowerWithin, lowerWithin, List.append_nil]
        by_cases hc : c = 'Σ'
        · rw [if_pos hc, if_pos hc, List.singleton_append, List.singleton_append, List.cons.injEq,
            hlater]
          exact and_congr_left' ⟨fun h _ => h, fun h => h hc⟩
        · rw [if_neg hc, if_neg hc, List.append_cancel_left_eq, hlater]
          exact ⟨fun h => ⟨fun hsigma => absurd hsigma hc, h⟩, fun h => h.2⟩
  have hnil := hall []
  rw [List.nil_append, lowerWithin_nil] at hnil
  simpa only [lowerChars, KeepsSigmas, List.nil_append, List.append_nil] using hnil

/-! ### Pieces found again -/

theorem KeepsSigmas.infix {before piece after : List Char}
    (h : KeepsSigmas before.reverse after piece) :
    lowerChars piece <:+: lowerChars (before ++ (piece ++ after)) := by
  rw [← lowerWithin_eq_lowerChars_iff.mpr h, lowerChars, lowerAfter_append, List.append_nil,
    lowerAfter_append, ← List.append_assoc]
  exact List.infix_append _ _ _

/-- At the front of a text there is one place where the piece can be found. -/
theorem lowerChars_prefix_iff {piece after : List Char} :
    lowerChars piece <+: lowerChars (piece ++ after) ↔ KeepsSigmas [] after piece := by
  rw [lowerChars.eq_1 (piece ++ after), lowerAfter_append, ← lowerWithin_eq_lowerChars_iff]
  constructor
  · rintro ⟨rest, hrest⟩
    exact (List.append_inj hrest (length_lowerWithin _ _ _).symm).1.symm
  · intro h
    rw [h]
    exact List.prefix_append _ _

theorem lowerChars_suffix_iff {before piece : List Char} :
    lowerChars piece <:+ lowerChars (before ++ piece) ↔ KeepsSigmas before.reverse [] piece := by
  rw [lowerChars.eq_1 (before ++ piece), lowerAfter_append, List.append_nil, ← lowerWithin_nil,
    ← lowerWithin_eq_lowerChars_iff]
  constructor
  · rintro ⟨rest, hrest⟩
    exact (List.append_inj' hrest (length_lowerWithin _ _ _).symm).2.symm
  · intro h
    rw [h]
    exact List.suffix_append _ _

/-! ## Marks -/

/-- A character with a meaning of its own in a pattern, or in an argument that becomes
one. -/
def isMark (c : Char) : Bool :=
  c = '*' || c = '%' || c = '_'

theorem isMark_iff {c : Char} : isMark c = true ↔ c = '*' ∨ c = '%' ∨ c = '_' := by
  simp only [isMark, Bool.or_eq_true, decide_eq_true_eq, or_assoc]

theorem any_isMark_iff {text : List Char} :
    text.any isMark = false ↔ ∀ c ∈ text, isMark c = false := by
  simp only [List.any_eq_false, Bool.not_eq_true]

variable {c w : Char}

theorem ne_sigma_of_isMark (h : isMark c = true) : c ≠ 'Σ' := by
  rcases isMark_iff.mp h with rfl | rfl | rfl <;> decide

theorem lowerChar_of_isMark (h : isMark c = true) : lowerChar c = [c] := by
  rcases isMark_iff.mp h with rfl | rfl | rfl <;> rfl

theorem toNat_of_isMark (h : isMark c = true) : 0 < c.toNat ∧ c.toNat ≤ 0x5F := by
  rcases isMark_iff.mp h with rfl | rfl | rfl <;> decide

theorem toNat_ofNat_or (n : Nat) : (Char.ofNat n).toNat = n ∨ (Char.ofNat n).toNat = 0 := by
  by_cases h : n.isValidChar
  · exact .inl (congrArg Char.toNat (dif_pos h))
  · exact .inr (congrArg Char.toNat (dif_neg h))

/-- No capital letter beyond ASCII has a mark for its lower-case letter. -/
theorem isMark_shiftLower (h : 0x80 ≤ c.toNat) : isMark (shiftLower c) = false := by
  have htable : ∀ run ∈ lowerRuns, (0x5F : Int) < run.1 + run.2.2.2 := by decide +kernel
  rw [← Bool.not_eq_true]
  intro hmark
  obtain ⟨hpos, hle⟩ := toNat_of_isMark hmark
  rw [shiftLower] at hpos hle
  split at hpos
  · rename_i first last step distance hrun
    have hin := List.find?_some hrun
    simp only [Bool.and_eq_true, decide_eq_true_eq] at hin
    have hfar := htable _ (List.mem_of_find?_eq_some hrun)
    simp only [hrun] at hle
    rcases toNat_ofNat_or (c.toNat + distance).toNat with heq | heq
    · simp only at hfar
      omega
    · omega
  · rename_i hrun
    simp only [hrun] at hle
    omega

theorem eq_of_mem_lowerChar (hw : isMark w = true) (h : w ∈ lowerChar c) : c = w := by
  rw [lowerChar] at h
  split at h
  · rename_i hascii
    have hall : ∀ n < 0x80, isMark (Char.ofNat n).toLower = true →
        (Char.ofNat n).toLower = Char.ofNat n := by decide
    have hlower := List.mem_singleton.mp h
    have hsame := hall c.toNat hascii
    rw [Char.ofNat_toNat, ← hlower] at hsame
    exact (hsame hw).symm
  · split at h
    · rcases List.mem_cons.mp h with rfl | h
      · cases hw
      · obtain rfl := List.mem_singleton.mp h
        cases hw
    · rename_i hascii _
      obtain rfl := List.mem_singleton.mp h
      rw [isMark_shiftLower (Nat.le_of_not_lt hascii)] at hw
      cases hw

theorem countP_lowerChar (c : Char) : (lowerChar c).countP isMark = [c].countP isMark := by
  by_cases hc : isMark c = true
  · rw [lowerChar_of_isMark hc]
  · have hnone : ∀ d ∈ lowerChar c, ¬ isMark d = true := fun d hd hmark =>
      hc (eq_of_mem_lowerChar hmark hd ▸ hmark)
    rw [List.countP_eq_zero.mpr hnone, List.countP_singleton, if_neg hc]

theorem lowerSigma_eq_or (before after : List Char) :
    lowerSigma before after = 'ς' ∨ lowerSigma before after = 'σ' := by
  unfold lowerSigma
  split
  · exact .inl rfl
  · exact .inr rfl

/-- **Lower-casing adds no mark and takes none away.** -/
@[simp]
theorem countP_lowerChars (text : List Char) :
    (lowerChars text).countP isMark = text.countP isMark := by
  have hall : ∀ before, (lowerAfter before text).countP isMark = text.countP isMark := by
    induction text with
    | nil => exact fun _ => rfl
    | cons c text ih =>
        intro before
        have hfirst : (if c = 'Σ' then [lowerSigma before text] else lowerChar c).countP isMark =
            [c].countP isMark := by
          split
          · rename_i hc
            subst hc
            rcases lowerSigma_eq_or before text with hsigma | hsigma <;> (rw [hsigma]; rfl)
          · exact countP_lowerChar c
        rw [lowerAfter, List.countP_append, hfirst, ih, ← List.countP_append,
          List.singleton_append]
  exact hall []

theorem isMark_lowerChars {text : List Char} (h : ∀ c ∈ text, isMark c = false) :
    ∀ c ∈ lowerChars text, isMark c = false := by
  have hzero : (lowerChars text).countP isMark = 0 := by
    rw [countP_lowerChars, List.countP_eq_zero]
    intro c hc
    rw [h c hc]
    exact Bool.false_ne_true
  intro c hc
  rw [← Bool.not_eq_true]
  exact List.countP_eq_zero.mp hzero c hc

/-! ## Around marks -/

theorem startsCased_mark (h : isMark w = true) (rest : List Char) :
    startsCased (w :: rest) = false := by
  have hignored : inRanges caseIgnorableRanges w = false ∧ inRanges casedRanges w = false := by
    rcases isMark_iff.mp h with rfl | rfl | rfl <;> decide +kernel
  rw [startsCased, List.dropWhile_cons_of_neg (by simp [hignored.1])]
  exact hignored.2

@[simp]
theorem startsCased_cons (c : Char) (rest : List Char) :
    startsCased (c :: rest) =
      if inRanges caseIgnorableRanges c then startsCased rest else inRanges casedRanges c := by
  unfold startsCased
  rw [List.dropWhile_cons]
  by_cases hc : inRanges caseIgnorableRanges c = true
  · rw [if_pos hc, if_pos hc]
  · rw [if_neg hc, if_neg hc]

/-- What stands behind marks is not looked at. -/
theorem startsCased_append {marks : List Char} (h : ∀ w ∈ marks, isMark w = true)
    (text : List Char) : startsCased (text ++ marks) = startsCased text := by
  induction text with
  | nil =>
      cases marks with
      | nil => rfl
      | cons w marks => exact startsCased_mark (h w List.mem_cons_self) marks
  | cons c text ih => simp [ih]

theorem lowerAfter_marks {marks : List Char} (h : ∀ w ∈ marks, isMark w = true)
    (before text : List Char) :
    lowerAfter before (marks ++ text) = marks ++ lowerAfter (marks.reverse ++ before) text := by
  induction marks generalizing before with
  | nil => rfl
  | cons w marks ih =>
      obtain ⟨hw, hmarks⟩ := List.forall_mem_cons.mp h
      rw [List.cons_append, lowerAfter, if_neg (ne_sigma_of_isMark hw), lowerChar_of_isMark hw,
        ih hmarks, List.reverse_cons, List.append_assoc]
      rfl

/-- **Marks at either end of a text leave it alone.** -/
theorem lowerChars_between {front back : List Char} (hfront : ∀ w ∈ front, isMark w = true)
    (hback : ∀ w ∈ back, isMark w = true) (piece : List Char) :
    lowerChars (front ++ (piece ++ back)) = front ++ (lowerChars piece ++ back) := by
  have hpiece : lowerWithin front.reverse back piece = lowerChars piece := by
    refine lowerWithin_eq_lowerChars_iff.mpr fun u v _ => ?_
    have hfront' : ∀ w ∈ front.reverse, isMark w = true := fun w hw =>
      hfront w (List.mem_reverse.mp hw)
    rw [lowerSigma, lowerSigma, startsCased_append hfront', startsCased_append hback]
  have hend : lowerAfter (piece.reverse ++ front.reverse) back = back := by
    have hmarks := lowerAfter_marks hback (piece.reverse ++ front.reverse) []
    rwa [List.append_nil, lowerAfter, List.append_nil] at hmarks
  rw [lowerChars, lowerAfter_marks hfront, List.append_nil, lowerAfter_append, hpiece, hend]

/-! ## Other marks -/

variable {f : Char → Char}

theorem startsCased_map (hmark : ∀ c, isMark (f c) = isMark c)
    (hplain : ∀ c, isMark c = false → f c = c) (text : List Char) :
    startsCased (text.map f) = startsCased text := by
  induction text with
  | nil => rfl
  | cons c text ih =>
      rw [List.map_cons]
      cases hc : isMark c with
      | true => rw [startsCased_mark hc, startsCased_mark ((hmark c).trans hc)]
      | false => simp [hplain c hc, ih]

theorem map_lowerChar (hplain : ∀ c, isMark c = false → f c = c) (hc : isMark c = false) :
    (lowerChar c).map f = lowerChar c := by
  have hkeep : ∀ d ∈ lowerChar c, f d = d := by
    intro d hd
    refine hplain d ?_
    rw [← Bool.not_eq_true]
    intro hmark
    rw [eq_of_mem_lowerChar hmark hd, hmark] at hc
    cases hc
  exact (List.map_congr_left hkeep).trans (List.map_id _)

theorem map_lowerSigma (hplain : ∀ c, isMark c = false → f c = c) (before after : List Char) :
    f (lowerSigma before after) = lowerSigma before after := by
  rcases lowerSigma_eq_or before after with h | h <;> (rw [h]; exact hplain _ rfl)

/-- **One mark does for another**: they can be exchanged before or after. -/
theorem lowerChars_map (hmark : ∀ c, isMark (f c) = isMark c)
    (hplain : ∀ c, isMark c = false → f c = c) (text : List Char) :
    lowerChars (text.map f) = (lowerChars text).map f := by
  have hall : ∀ before before', startsCased before' = startsCased before →
      lowerAfter before' (text.map f) = (lowerAfter before text).map f := by
    induction text with
    | nil => exact fun _ _ _ => rfl
    | cons c text ih =>
        intro before before' hbefore
        rw [List.map_cons, lowerAfter, lowerAfter, List.map_append]
        cases hc : isMark c with
        | true =>
            have hfc : isMark (f c) = true := (hmark c).trans hc
            have hnext : startsCased (f c :: before') = startsCased (c :: before) := by
              rw [startsCased_mark hc, startsCased_mark hfc]
            rw [if_neg (ne_sigma_of_isMark hfc), if_neg (ne_sigma_of_isMark hc),
              lowerChar_of_isMark hfc, lowerChar_of_isMark hc, ih _ _ hnext]
            rfl
        | false =>
            have hnext : startsCased (c :: before') = startsCased (c :: before) := by
              rw [startsCased_cons, startsCased_cons, hbefore]
            rw [hplain c hc, ih _ _ hnext]
            congr 1
            split
            · have hsigma : lowerSigma before' (text.map f) = lowerSigma before text := by
                rw [lowerSigma, lowerSigma, hbefore, startsCased_map hmark hplain]
              rw [hsigma, List.map_singleton, map_lowerSigma hplain]
            · exact (map_lowerChar hplain hc).symm
  exact hall [] [] rfl

end RecordFilter.Text
