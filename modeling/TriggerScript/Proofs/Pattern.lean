import Mathlib.Tactic.Common
import TriggerScript.Pattern

/-!
# Ways to match a pattern

The places up to which a pattern can match are given by a relation that knows of no preference
(`Pattern.Matches`). What `Pattern.run` answers comes from one of them (`Pattern.exists_matches_of_run`),
and the text up to there is what the pattern says, which is worked out here for a class of characters
that is repeated (`Pattern.exists_of_matches_times_one`).
-/

namespace TriggerScript

namespace Cursor

variable {c c' : Cursor} {x : Char} {text : List Char}

lemma rest_of_next? (h : c.next? = some (x, c')) : c.rest = x :: c'.rest := by
  obtain ⟨before, rest, left, hleft⟩ := c
  cases rest with
  | nil => cases h
  | cons y ys =>
    cases h
    rfl

/-- The text between two places is what stands in front of the rest. -/
lemma textUntil_of_rest (h : c.rest = text ++ c'.rest) : c.textUntil c' = String.ofList text := by
  have hlength : c.left - c'.left = text.length := by
    rw [c.left_eq, c'.left_eq, h, List.length_append, Nat.add_sub_cancel]
  rw [textUntil, hlength, h, List.take_left]

lemma later?_eq_some {l : c.Later} (h : c.later? c' = some l) : l.1 = c' := by
  unfold later? at h
  split_ifs at h
  obtain rfl := Option.some.inj h
  rfl

end Cursor

namespace Pattern

/-- The pattern can match the text between two places. -/
inductive Matches : Pattern → Cursor → Cursor → Prop
  | empty {c} : Matches .empty c c
  | one {chars c x c'} (hnext : c.next? = some (x, c')) (hx : chars.contains x) :
      Matches (.one chars) c c'
  | boundary {c} (hc : c.atBoundary) : Matches .boundary c c
  | seq {p q c c' c''} (hp : Matches p c c') (hq : Matches q c' c'') : Matches (.seq p q) c c''
  | left {p q c c'} (hp : Matches p c c') : Matches (.alt p q) c c'
  | right {p q c c'} (hq : Matches q c c') : Matches (.alt p q) c c'
  | stop {p c} : Matches (.star p) c c
  | again {p c c' c''} (hp : Matches p c c') (hlt : c'.left < c.left)
      (hrest : Matches (.star p) c' c'') : Matches (.star p) c c''

variable {p : Pattern} {c c' : Cursor} {chars : CharClass}

/-- What a match leaves is the end of the text it began in. -/
lemma Matches.exists_append (h : p.Matches c c') : ∃ text, c.rest = text ++ c'.rest := by
  induction h with
  | empty | boundary | stop => exact ⟨[], rfl⟩
  | one hnext => exact ⟨[_], Cursor.rest_of_next? hnext⟩
  | left _ ih | right _ ih => exact ih
  | seq _ _ ihp ihq | again _ _ _ ihp ihq =>
    obtain ⟨text, htext⟩ := ihp
    obtain ⟨text', htext'⟩ := ihq
    exact ⟨text ++ text', by rw [htext, htext', List.append_assoc]⟩

/-- What a run answers is accepted at the end of one of the ways to match. -/
theorem exists_matches_of_run {α : Type} {k : Cursor → Option α} {r : α} (h : p.run c k = some r) :
    ∃ c', p.Matches c c' ∧ k c' = some r := by
  induction p generalizing c k with
  | empty => exact ⟨c, .empty, h⟩
  | one chars =>
    simp only [run] at h
    split at h
    · rename_i x c' hnext
      split_ifs at h with hx
      exact ⟨c', .one hnext hx, h⟩
    · cases h
  | boundary =>
    simp only [run] at h
    split_ifs at h with hc
    exact ⟨c, .boundary hc, h⟩
  | seq p q ihp ihq =>
    obtain ⟨c', hp, h⟩ := ihp h
    obtain ⟨c'', hq, h⟩ := ihq h
    exact ⟨c'', .seq hp hq, h⟩
  | alt p q ihp ihq =>
    simp only [run] at h
    split at h
    · rename_i hp
      obtain ⟨c', hp, h⟩ := ihp (hp.trans h)
      exact ⟨c', .left hp, h⟩
    · obtain ⟨c', hq, h⟩ := ihq h
      exact ⟨c', .right hq, h⟩
  | star p ih =>
    have hrepeat : ∀ bound c, repeatRun p.run bound c k = some r →
        ∃ c', (star p).Matches c c' ∧ k c' = some r := by
      intro bound
      induction bound with
      | zero => exact fun c h => ⟨c, .stop, h⟩
      | succ bound ihbound =>
        intro c h
        simp only [repeatRun] at h
        split at h
        · rename_i hp
          obtain ⟨c', hp, h⟩ := ih (hp.trans h)
          split_ifs at h with hlt
          obtain ⟨c'', hrest, h⟩ := ihbound c' h
          exact ⟨c'', .again hp hlt hrest, h⟩
        · exact ⟨c, .stop, h⟩
    exact hrepeat c.left c h

lemma matches_of_match? (h : p.match? c = some c') : p.Matches c c' := by
  obtain ⟨c'', hmatch, heq⟩ := exists_matches_of_run h
  obtain rfl := Option.some.inj heq
  exact hmatch

lemma matches_of_matchSome? {l : c.Later} (h : Matching.matchSome? p c = some l) :
    p.Matches c.restart l.1 := by
  obtain ⟨c', hmatch, hlater⟩ := Option.bind_eq_some_iff.1 h
  rw [Cursor.later?_eq_some hlater]
  exact matches_of_match? hmatch

lemma exists_of_matches_one (h : (one chars).Matches c c') :
    ∃ x, chars.contains x ∧ c.rest = x :: c'.rest := by
  cases h with
  | one hnext hx => exact ⟨_, hx, Cursor.rest_of_next? hnext⟩

/-- A class of characters that is repeated matches so many characters of the class. -/
lemma exists_of_matches_times_one {n : Nat} (h : (times (one chars) n).Matches c c') :
    ∃ text, text.length = n ∧ (∀ x ∈ text, chars.contains x) ∧ c.rest = text ++ c'.rest := by
  fun_induction times (one chars) n generalizing c with
  | case1 =>
    cases h
    exact ⟨[], rfl, List.forall_mem_nil _, rfl⟩
  | case2 =>
    obtain ⟨x, hx, hrest⟩ := exists_of_matches_one h
    exact ⟨[x], rfl, List.forall_mem_singleton.2 hx, hrest⟩
  | case3 n _ ih =>
    cases h with
    | seq hp hq =>
      obtain ⟨x, hx, hrest⟩ := exists_of_matches_one hp
      obtain ⟨text, hlength, htext, hrest'⟩ := ih hq
      refine ⟨x :: text, by rw [List.length_cons, hlength], List.forall_mem_cons.2 ⟨hx, htext⟩, ?_⟩
      rw [hrest, hrest', List.cons_append]

end Pattern

end TriggerScript
