import AdocProse.Tree.Printer
import Mathlib.Tactic.Lemma

/-! No two kinds share a name, so the tag of a kind names that kind alone. -/

namespace AdocProse.Kind

lemma mem_all (k : Kind) : k ∈ all := by
  cases k <;> decide

lemma find_name : ∀ k ∈ all, all.find? (·.name == k.name) = some k := by
  decide +kernel

lemma name_inj {k k' : Kind} (h : k.name = k'.name) : k = k' := by
  have hfind := find_name k (mem_all k)
  rw [h, find_name k' (mem_all k')] at hfind
  exact (Option.some.inj hfind).symm

lemma name_letters (k : Kind) : ∃ c cs, k.name.toList = c :: cs ∧
    ∀ d ∈ c :: cs, d.isUpper = true ∨ d = '_' := by
  have hname : ∃ c cs, k.name = String.ofList (c :: cs) ∧
      (c :: cs).all (fun d => d.isUpper || d == '_') = true := by
    cases k <;> exact ⟨_, _, rfl, rfl⟩
  obtain ⟨c, cs, hname, hletters⟩ := hname
  exact ⟨c, cs, by rw [hname, String.toList_ofList], by simpa using hletters⟩

lemma name_plain {k : Kind} {c : Char} (hc : c ∈ k.name.toList) : c ≠ '@' ∧ c ≠ ' ' ∧ c ≠ '\n' := by
  obtain ⟨d, ds, hname, hletters⟩ := name_letters k
  have hletter := hletters c (hname ▸ hc)
  refine ⟨?_, ?_, ?_⟩
  all_goals
    rintro rfl
    exact absurd hletter (by decide)

lemma ofTag_tag (k : Kind) : ofTag k.tag = .ok k := by
  have hbare : withoutNameSpace k.tag.toList = k.name.toList := by
    rw [tag, String.toList_ofList, withoutNameSpace, if_pos (by simp), List.drop_left]
  simp only [ofTag, hbare, String.ofList_toList, find_name k (mem_all k)]

end AdocProse.Kind
