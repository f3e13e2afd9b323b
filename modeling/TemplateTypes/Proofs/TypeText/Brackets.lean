import TemplateTypes.Proofs.Text.Spacing
import TemplateTypes.TypeText.Brackets

namespace TemplateTypes

open Text

theorem isInfix_topPiecesFrom (separator : Char) (s : Scanner) (t : Text) :
    (∀ piece ∈ (topPiecesFrom separator s t).head?, piece <+: t) ∧
      ∀ piece ∈ topPiecesFrom separator s t, piece <:+: t := by
  fun_induction topPiecesFrom separator s t with
  | case1 s => simp
  | case2 s c rest cut ih =>
    refine ⟨by simp, ?_⟩
    intro piece member
    rcases List.mem_cons.mp member with rfl | member
    · exact List.nil_infix
    · exact List.infix_cons (ih.2 piece member)
  | case3 s c rest cut none ih =>
    have front : [c] <+: c :: rest := ⟨rest, rfl⟩
    exact ⟨by simp, by simpa using front.isInfix⟩
  | case4 s c rest cut piece more found ih =>
    rw [found] at ih
    have front : c :: piece <+: c :: rest := List.cons_prefix_cons.mpr ⟨rfl, ih.1 piece rfl⟩
    constructor
    · rintro p ⟨⟩
      exact front
    · intro p member
      rcases List.mem_cons.mp member with rfl | member
      · exact front.isInfix
      · exact List.infix_cons (ih.2 p (List.mem_cons_of_mem piece member))

theorem mem_splitTop {separator : Char} {t part : Text} (member : part ∈ splitTop separator t) :
    part ≠ [] ∧ Trimmed part ∧ part <:+: t := by
  simp only [splitTop, List.mem_filter, List.mem_map] at member
  obtain ⟨⟨piece, cut, rfl⟩, visible⟩ := member
  refine ⟨by simpa using visible, trimmed_trim piece, ?_⟩
  exact (isInfix_trim piece).trans ((isInfix_topPiecesFrom separator .start t).2 piece cut)

end TemplateTypes
