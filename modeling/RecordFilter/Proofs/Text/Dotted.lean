/-
# `Proofs.Text.Dotted` — dotted texts

A dotted text and the names between its dots tell the same: names joined by dots are
cut into the same names again if none of them holds a dot (`dotted_joinDots`), and
the pieces of a text are joined to the text again, whatever it is
(`joinDots_dotted`).  So a dot in a text always parts two names, and two lists of
names with the same text are the same list.
-/
import RecordFilter.Text.Basic

namespace RecordFilter.Text

/-! ## Cutting -/

theorem cut_ne_nil (mark : Char) (text : List Char) : cut mark text ≠ [] := by
  match text with
  | [] => exact List.cons_ne_nil _ _
  | c :: rest =>
      rw [cut]
      split
      · exact List.cons_ne_nil _ _
      · cases cut mark rest <;> exact List.cons_ne_nil _ _

theorem dotted_ne_nil (path : String) : dotted path ≠ [] := by
  intro h
  exact cut_ne_nil _ _ (List.map_eq_nil_iff.mp h)

theorem cut_append {mark : Char} {front : List Char} (h : mark ∉ front) (rest : List Char) :
    cut mark (front ++ mark :: rest) = front :: cut mark rest := by
  induction front with
  | nil => rw [List.nil_append, cut, if_pos rfl]
  | cons c front ih =>
      obtain ⟨hc, hfront⟩ := not_or.mp (mt List.mem_cons.mpr h)
      rw [List.cons_append, cut, if_neg (Ne.symm hc), ih hfront]

theorem cut_of_notMem {mark : Char} {text : List Char} (h : mark ∉ text) :
    cut mark text = [text] := by
  induction text with
  | nil => rfl
  | cons c rest ih =>
      obtain ⟨hc, hrest⟩ := not_or.mp (mt List.mem_cons.mpr h)
      rw [cut, if_neg (Ne.symm hc), ih hrest]

theorem cut_front {mark : Char} {front : List Char} (h : mark ∉ front) (rest : List Char) :
    ∃ piece pieces, cut mark (front ++ rest) = (front ++ piece) :: pieces := by
  induction front with
  | nil => exact List.exists_cons_of_ne_nil (cut_ne_nil mark rest)
  | cons c front ih =>
      obtain ⟨hc, hfront⟩ := not_or.mp (mt List.mem_cons.mpr h)
      obtain ⟨piece, pieces, hcut⟩ := ih hfront
      refine ⟨piece, pieces, ?_⟩
      rw [List.cons_append, cut, if_neg (Ne.symm hc), hcut]
      rfl

theorem of_mem_cut {mark : Char} {text : List Char} :
    ∀ piece ∈ cut mark text, mark ∉ piece ∧ ∀ c ∈ piece, c ∈ text := by
  induction text with
  | nil =>
      intro piece hpiece
      rw [List.mem_singleton.mp hpiece]
      exact ⟨List.not_mem_nil, fun c hc => hc⟩
  | cons c rest ih =>
      have hrest : ∀ piece ∈ cut mark rest, mark ∉ piece ∧ ∀ d ∈ piece, d ∈ c :: rest :=
        fun piece hpiece =>
          ⟨(ih piece hpiece).1, fun d hd => List.mem_cons_of_mem c ((ih piece hpiece).2 d hd)⟩
      rw [cut]
      split
      · refine List.forall_mem_cons.mpr ⟨⟨List.not_mem_nil, fun d hd => ?_⟩, hrest⟩
        cases hd
      · next hc =>
          cases hcut : cut mark rest with
          | nil => exact absurd hcut (cut_ne_nil mark rest)
          | cons first pieces =>
              rw [hcut] at hrest
              obtain ⟨⟨hmark, hmem⟩, hpieces⟩ := List.forall_mem_cons.mp hrest
              refine List.forall_mem_cons.mpr ⟨⟨?_, ?_⟩, hpieces⟩
              · intro h
                rcases List.mem_cons.mp h with h | h
                · exact hc h.symm
                · exact hmark h
              · exact List.forall_mem_cons.mpr ⟨List.mem_cons_self, hmem⟩

/-! ## Names -/

theorem toList_prefix (name path : String) :
    (name ++ "." ++ path).toList = name.toList ++ '.' :: path.toList := by
  rw [String.toList_append, String.toList_append, List.append_assoc]
  rfl

theorem dotted_of_notMem {name : String} (h : '.' ∉ name.toList) : dotted name = [name] := by
  rw [dotted, cut_of_notMem h, List.map_singleton, String.ofList_toList]

theorem dotted_prefix {name : String} (h : '.' ∉ name.toList) (path : String) :
    dotted (name ++ "." ++ path) = name :: dotted path := by
  rw [dotted, toList_prefix, cut_append h, List.map_cons, String.ofList_toList, dotted]

theorem joinDots_cons {names : List String} (h : names ≠ []) (name : String) :
    (joinDots (name :: names)).toList = (name ++ ".").toList ++ (joinDots names).toList := by
  rw [joinDots, String.intercalate_cons_of_ne_nil h, String.toList_append]
  rfl

theorem joinDots_append {front back : List String} (hfront : front ≠ []) (hback : back ≠ []) :
    joinDots (front ++ back) = joinDots front ++ "." ++ joinDots back :=
  String.intercalate_append_of_ne_nil hfront hback

theorem of_mem_dotted {path name : String} (h : name ∈ dotted path) :
    '.' ∉ name.toList ∧ ∀ c ∈ name.toList, c ∈ path.toList := by
  obtain ⟨piece, hpiece, rfl⟩ := List.mem_map.mp h
  rw [String.toList_ofList]
  exact of_mem_cut piece hpiece

theorem joinDots_cut (text : List Char) :
    (joinDots ((cut '.' text).map String.ofList)).toList = text := by
  induction text with
  | nil => rfl
  | cons c rest ih =>
      rw [cut]
      split
      · next hc =>
          rw [List.map_cons, joinDots_cons (mt List.map_eq_nil_iff.mp (cut_ne_nil '.' rest)), ih, hc]
          rfl
      · cases hcut : cut '.' rest with
        | nil => exact absurd hcut (cut_ne_nil '.' rest)
        | cons piece pieces =>
            rw [hcut, List.map_cons] at ih
            dsimp only
            rw [List.map_cons]
            by_cases hpieces : pieces.map String.ofList = []
            · rw [hpieces, joinDots, String.intercalate_singleton, String.toList_ofList] at ih ⊢
              rw [ih]
            · rw [joinDots_cons hpieces, String.toList_append, String.toList_ofList] at ih ⊢
              rw [List.append_assoc] at ih ⊢
              rw [List.cons_append, ih]

@[simp]
theorem joinDots_dotted (path : String) : joinDots (dotted path) = path :=
  String.toList_inj.mp (joinDots_cut path.toList)

/-- **Names without dots are read from their text.** -/
theorem dotted_joinDots {names : List String} (hne : names ≠ [])
    (hdot : ∀ name ∈ names, '.' ∉ name.toList) : dotted (joinDots names) = names := by
  induction names with
  | nil => exact absurd rfl hne
  | cons name names ih =>
      obtain ⟨hname, hnames⟩ := List.forall_mem_cons.mp hdot
      by_cases hrest : names = []
      · subst hrest
        rw [joinDots, String.intercalate_singleton, dotted, cut_of_notMem hname]
        exact congrArg (fun text => [text]) (String.ofList_toList)
      · have htext : joinDots (name :: names) = name ++ "." ++ joinDots names := by
          rw [← String.toList_inj, joinDots_cons hrest, String.toList_append, String.toList_append,
            String.toList_append]
        rw [htext, dotted_prefix hname, ih hrest hnames]

/-- **A text is cut into the names that it is joined from**, and into no others. -/
theorem dotted_eq_iff {path : String} {names : List String} :
    dotted path = names ↔
      names ≠ [] ∧ (∀ name ∈ names, '.' ∉ name.toList) ∧ joinDots names = path := by
  constructor
  · rintro rfl
    exact ⟨dotted_ne_nil path, fun name hname => (of_mem_dotted hname).1, joinDots_dotted path⟩
  · rintro ⟨hne, hdot, rfl⟩
    exact dotted_joinDots hne hdot

theorem mem_joinDots {names : List String} {c : Char} (h : c ∈ (joinDots names).toList) :
    c = '.' ∨ ∃ name ∈ names, c ∈ name.toList := by
  induction names with
  | nil => cases h
  | cons name names ih =>
      by_cases hrest : names = []
      · subst hrest
        rw [joinDots, String.intercalate_singleton] at h
        exact .inr ⟨name, List.mem_cons_self, h⟩
      · rw [joinDots_cons hrest, List.mem_append, String.toList_append, List.mem_append] at h
        rcases h with (h | h) | h
        · exact .inr ⟨name, List.mem_cons_self, h⟩
        · exact .inl (List.mem_singleton.mp h)
        · rcases ih h with h | ⟨name', hname', h⟩
          · exact .inl h
          · exact .inr ⟨name', List.mem_cons_of_mem name hname', h⟩

end RecordFilter.Text
