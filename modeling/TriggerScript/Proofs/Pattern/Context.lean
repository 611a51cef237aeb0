import TriggerScript.Proofs.Pattern

/-!
# Matches in a longer text

A pattern that has no use for the first character of a text does the same whether or not that text
stands behind the one it is matched against (`Pattern.run_extend`, `Pattern.avoids`). With nothing
behind it this says that a run whose matches are all accepted takes the preferred one
(`Pattern.run_eq_bind`), so that repetitions which nothing holds back go as far as they can
(`Pattern.match?_star`, `Pattern.exists_match?_star_one`).

A run answers whenever one of the ways to match is accepted (`Pattern.isSome_run_of_matches`).
-/

namespace TriggerScript

namespace Cursor

variable {c c' : Cursor} {x : Char} {rest : List Char}

lemma eq_of_before_rest (hbefore : c.before = c'.before) (hrest : c.rest = c'.rest) : c = c' := by
  obtain ⟨before, text, left, rfl⟩ := c
  obtain ⟨before', text', left', rfl⟩ := c'
  obtain rfl : before = before' := hbefore
  obtain rfl : text = text' := hrest
  rfl

/-- The same place in a text that goes on with `rest`. -/
def extend (c : Cursor) (rest : List Char) : Cursor :=
  ⟨c.before, c.rest ++ rest, c.left + rest.length, by rw [c.left_eq, List.length_append]⟩

lemma extend_nil (c : Cursor) : c.extend [] = c :=
  eq_of_before_rest rfl (List.append_nil c.rest)

lemma start_append (text rest : List Char) : start (text ++ rest) = (start text).extend rest :=
  eq_of_before_rest rfl rfl

lemma extend_left_lt_iff : (c'.extend rest).left < (c.extend rest).left ↔ c'.left < c.left :=
  Nat.add_lt_add_iff_right

lemma next?_eq_none_iff : c.next? = none ↔ c.rest = [] := by
  obtain ⟨before, text, left, hleft⟩ := c
  cases text <;> simp [next?]

lemma next?_of_rest (h : c.rest = x :: rest) : ∃ c', c.next? = some (x, c') ∧ c'.rest = rest := by
  obtain ⟨before, text, left, hleft⟩ := c
  obtain rfl : text = x :: rest := h
  exact ⟨_, rfl, rfl⟩

lemma before_of_next? (h : c.next? = some (x, c')) : c'.before = some x := by
  obtain ⟨before, text, left, hleft⟩ := c
  cases text with
  | nil => cases h
  | cons y text =>
    cases h
    rfl

lemma skip?_cons (c : Cursor) (x : Char) (s : List Char) :
    c.skip? (x :: s) = (c.skip? [x]).bind (·.skip? s) := by
  cases hnext : c.next? with
  | none => simp [skip?, hnext]
  | some entry => by_cases hx : x = entry.1 <;> simp [skip?, hnext, hx]

lemma next?_extend (h : c.next? = some (x, c')) :
    (c.extend rest).next? = some (x, c'.extend rest) := by
  obtain ⟨before, text, left, hleft⟩ := c
  cases text with
  | nil => cases h
  | cons y text =>
    cases h
    exact congrArg (fun c' => some (x, c')) (eq_of_before_rest rfl rfl)

lemma atBoundary_extend (hrest : ∀ y ∈ rest.head?, Text.isWord y = false) :
    (c.extend rest).atBoundary = c.atBoundary := by
  obtain ⟨before, text, left, hleft⟩ := c
  cases text with
  | cons y text => rfl
  | nil =>
    cases rest with
    | nil => rfl
    | cons y rest =>
      have hy : Text.isWord y = false := hrest y rfl
      simp [atBoundary, extend, hy]

end Cursor

namespace Pattern

variable {α β : Type} {p q : Pattern} {c c' : Cursor} {x : Char} {rest : List Char}
  {k : Cursor → Option α}

/-- Whether the pattern has no use for the character: none of its classes has it, and where it asks for a
boundary the character is no part of a word. -/
def avoids (x : Char) : Pattern → Bool
  | empty => true
  | one chars => !chars.contains x
  | boundary => !Text.isWord x
  | seq p q => p.avoids x && q.avoids x
  | alt p q => p.avoids x && q.avoids x
  | star p => p.avoids x

lemma run_none (p : Pattern) (c : Cursor) : p.run c (fun _ => (none : Option α)) = none := by
  by_contra hsome
  obtain ⟨r, hr⟩ := Option.ne_none_iff_exists'.1 hsome
  obtain ⟨_, -, hnone⟩ := exists_matches_of_run hr
  cases hnone

/-- The bound on repetitions plays no role if it is as large as the text that is left. -/
lemma repeatRun_bound {b b' : Nat} (hb : c.left ≤ b) (hb' : c.left ≤ b') :
    repeatRun p.run b c k = repeatRun p.run b' c k := by
  induction b generalizing b' c with
  | zero =>
    have hleft : c.left = 0 := Nat.le_zero.1 hb
    cases b' with
    | zero => rfl
    | succ b' => simp [repeatRun, hleft, run_none]
  | succ b ih =>
    cases b' with
    | zero =>
      have hleft : c.left = 0 := Nat.le_zero.1 hb'
      simp [repeatRun, hleft, run_none]
    | succ b' =>
      have hagain : (fun c' : Cursor => if c'.left < c.left then repeatRun p.run b c' k else none) =
          fun c' => if c'.left < c.left then repeatRun p.run b' c' k else none := by
        funext c'
        split_ifs with hlt
        · exact ih (by omega) (by omega)
        · rfl
      simp only [repeatRun, hagain]

/-- A repetition is one more match of the body and a repetition behind it, or else nothing. -/
lemma run_star : (star p).run c k =
    (p.run c fun c' => if c'.left < c.left then (star p).run c' k else none).or (k c) := by
  have hagain : (fun c' : Cursor => if c'.left < c.left then repeatRun p.run c.left c' k else none) =
      fun c' => if c'.left < c.left then (star p).run c' k else none := by
    funext c'
    split_ifs with hlt
    · exact repeatRun_bound (Nat.le_of_lt hlt) (Nat.le_refl _)
    · rfl
  rw [← hagain]
  calc (star p).run c k = repeatRun p.run (c.left + 1) c k :=
        repeatRun_bound (Nat.le_refl _) (Nat.le_succ _)
    _ = _ := by
      simp only [repeatRun]
      split <;> rename_i h <;> simp [h]

/-- A pattern does the same in front of a text whose first character it has no use for, up to what is
done with its matches. -/
theorem run_extend {k' : Cursor → Option β} {f : α → β} (hp : ∀ x ∈ rest.head?, p.avoids x)
    (hk : ∀ c', p.Matches c c' → k' (c'.extend rest) = (k c').map f) :
    p.run (c.extend rest) k' = (p.run c k).map f := by
  induction p generalizing c k k' with
  | empty => exact hk c .empty
  | one chars =>
    simp only [run]
    cases hnext : c.next? with
    | some entry =>
      obtain ⟨x, c'⟩ := entry
      rw [Cursor.next?_extend hnext]
      by_cases hx : chars.contains x
      · simpa [hx] using hk c' (.one hnext hx)
      · simp [hx]
    | none =>
      -- the text ends here, and the class does not have what comes next
      have hrest : (c.extend rest).rest = rest := by
        simpa [Cursor.extend] using Cursor.next?_eq_none_iff.1 hnext
      cases rest with
      | nil => rw [Cursor.next?_eq_none_iff.2 hrest]; rfl
      | cons x rest =>
        obtain ⟨c', hnext', -⟩ := Cursor.next?_of_rest hrest
        have hx : chars.contains x = false := by simpa [avoids] using hp x rfl
        simp [hnext', hx]
  | boundary =>
    have hboundary : (c.extend rest).atBoundary = c.atBoundary :=
      Cursor.atBoundary_extend fun y hy => by simpa [avoids] using hp y hy
    simp only [run, hboundary]
    split_ifs with hc
    · exact hk c (.boundary hc)
    · rfl
  | seq p q ihp ihq =>
    have havoids : ∀ x ∈ rest.head?, p.avoids x ∧ q.avoids x := fun x hx => by
      simpa [avoids] using hp x hx
    exact ihp (fun x hx => (havoids x hx).1) fun c' hc' =>
      ihq (fun x hx => (havoids x hx).2) fun c'' hc'' => hk c'' (.seq hc' hc'')
  | alt p q ihp ihq =>
    have havoids : ∀ x ∈ rest.head?, p.avoids x ∧ q.avoids x := fun x hx => by
      simpa [avoids] using hp x hx
    simp only [run]
    rw [ihp (fun x hx => (havoids x hx).1) fun c' hc' => hk c' (.left hc'),
      ihq (fun x hx => (havoids x hx).2) fun c' hc' => hk c' (.right hc')]
    cases p.run c k <;> rfl
  | star p ih =>
    have hrepeat : ∀ bound c, (∀ c', (star p).Matches c c' → k' (c'.extend rest) = (k c').map f) →
        repeatRun p.run bound (c.extend rest) k' = (repeatRun p.run bound c k).map f := by
      intro bound
      induction bound with
      | zero => exact fun c hk => hk c .stop
      | succ bound ihbound =>
        intro c hk
        simp only [repeatRun]
        rw [ih (k := fun c' => if c'.left < c.left then repeatRun p.run bound c' k else none) hp]
        · cases p.run c fun c' => if c'.left < c.left then repeatRun p.run bound c' k else none with
          | none => exact hk c .stop
          | some r => rfl
        · intro c' hc'
          simp only [Cursor.extend_left_lt_iff]
          split_ifs with hlt
          · exact ihbound c' fun c'' hc'' => hk c'' (.again hc' hlt hc'')
          · rfl
    have hbound : c.left ≤ (c.extend rest).left := Nat.le_add_right _ _
    simp only [run]
    rw [hrepeat _ c hk, repeatRun_bound hbound (Nat.le_refl _)]

/-- The preferred match is the same in front of a text whose first character the pattern has no use
for. -/
lemma match?_extend (hp : ∀ x ∈ rest.head?, p.avoids x) :
    p.match? (c.extend rest) = (p.match? c).map (·.extend rest) :=
  run_extend hp fun _ _ => rfl

/-- A run whose matches are all accepted takes the preferred match. -/
lemma run_eq_bind {k : Cursor → Option Cursor} (hk : ∀ c', p.Matches c c' → (k c').isSome) :
    p.run c k = (p.match? c).bind k := by
  have hget : ∀ c', p.Matches c c' → k c' = some ((k c').getD c') := by
    intro c' hc'
    obtain ⟨c'', hc''⟩ := Option.isSome_iff_exists.1 (hk c' hc')
    rw [hc'', Option.getD_some]
  have hrun : p.run (c.extend []) k = (p.run c some).map fun c' => (k c').getD c' := by
    refine run_extend (by simp) fun c' hc' => ?_
    rw [Cursor.extend_nil]
    exact hget c' hc'
  rw [Cursor.extend_nil] at hrun
  rw [hrun, match?]
  cases hmatch : p.run c some with
  | none => rfl
  | some c' =>
    rw [Option.map_some, Option.bind_some]
    exact (hget c' (matches_of_match? hmatch)).symm

/-- A run answers if one of the ways to match is accepted. -/
theorem isSome_run_of_matches (h : p.Matches c c') (hk : (k c').isSome) : (p.run c k).isSome := by
  induction h generalizing k with
  | empty => exact hk
  | one hnext hx => simpa [run, hnext, hx] using hk
  | boundary hc => simpa [run, hc] using hk
  | seq _ _ ihp ihq => exact ihp (ihq hk)
  | left _ ih =>
    obtain ⟨r, hr⟩ := Option.isSome_iff_exists.1 (ih hk)
    simp [run, hr]
  | @right p q c c' _ ih =>
    simp only [run]
    cases p.run c k with
    | none => exact ih hk
    | some r => rfl
  | stop =>
    rw [run_star, Option.isSome_or, hk, Bool.or_true]
  | @again p c c' c'' _ hlt _ ihp ihrest =>
    have hbody := ihp (k := fun c' => if c'.left < c.left then (star p).run c' k else none)
      (by simpa [hlt] using ihrest hk)
    rw [run_star, Option.isSome_or, hbody, Bool.true_or]

lemma isSome_match?_star (p : Pattern) (c : Cursor) : ((star p).match? c).isSome :=
  isSome_run_of_matches .stop rfl

lemma match?_seq_star : (seq p (star q)).match? c = (p.match? c).bind (star q).match? :=
  run_eq_bind fun c' _ => isSome_match?_star q c'

/-- A repetition goes on wherever its body matches. -/
lemma match?_star (hp : ∀ c', p.Matches c c' → c'.left < c.left) :
    (star p).match? c = ((p.match? c).bind (star p).match?).or (some c) := by
  have hagain : p.run c (fun c' => if c'.left < c.left then (star p).match? c' else none) =
      (p.match? c).bind (star p).match? := by
    rw [run_eq_bind]
    · cases hmatch : p.match? c with
      | none => rfl
      | some c' => simp [hp c' (matches_of_match? hmatch)]
    · intro c' hc'
      simp [hp c' hc', isSome_match?_star]
  rw [← hagain]
  exact run_star

/-- A class of characters that is repeated takes all of its characters that stand there. -/
lemma exists_match?_star_one (chars : CharClass) (c : Cursor) :
    ∃ c', (star (one chars)).match? c = some c' ∧ c'.rest = c.rest.dropWhile chars.contains := by
  have hshorter : ∀ c c', (one chars).Matches c c' → c'.left < c.left := by
    intro c c' h
    obtain ⟨x, -, hrest⟩ := exists_of_matches_one h
    rw [c.left_eq, c'.left_eq, hrest, List.length_cons]
    exact Nat.lt_succ_self _
  induction hrest : c.rest generalizing c with
  | nil =>
    have hnext := Cursor.next?_eq_none_iff.2 hrest
    refine ⟨c, ?_, by simpa using hrest⟩
    rw [match?_star (hshorter c)]
    simp [match?, run, hnext]
  | cons x rest ih =>
    obtain ⟨c₁, hnext, hrest₁⟩ := Cursor.next?_of_rest hrest
    by_cases hx : chars.contains x
    · obtain ⟨c', hmatch, hrest'⟩ := ih c₁ hrest₁
      refine ⟨c', ?_, by simpa [hx] using hrest'⟩
      have hone : (one chars).match? c = some c₁ := by simp [match?, run, hnext, hx]
      rw [match?_star (hshorter c), hone, Option.bind_some, hmatch, Option.some_or]
    · refine ⟨c, ?_, by simpa [hx] using hrest⟩
      have hone : (one chars).match? c = none := by simp [match?, run, hnext, hx]
      rw [match?_star (hshorter c), hone, Option.bind_none, Option.none_or]

/-- At least one character of a class is needed, and all that stand there are taken. -/
lemma exists_match?_plus_one {chars : CharClass} (hx : chars.contains x) (hrest : c.rest = x :: rest) :
    ∃ c', (plus (one chars)).match? c = some c' ∧ c'.rest = rest.dropWhile chars.contains := by
  obtain ⟨c₁, hnext, rfl⟩ := Cursor.next?_of_rest hrest
  obtain ⟨c', hmatch, hrest'⟩ := exists_match?_star_one chars c₁
  have hone : (one chars).match? c = some c₁ := by simp [match?, run, hnext, hx]
  refine ⟨c', ?_, hrest'⟩
  rw [plus, match?_seq_star, hone, Option.bind_some, hmatch]

/-- Characters of a class are matched one after the other. -/
lemma exists_matches_times_one {chars : CharClass} {text : List Char}
    (htext : ∀ x ∈ text, chars.contains x)
    (hrest : c.rest = text ++ rest) :
    ∃ c', (times (one chars) text.length).Matches c c' ∧ c'.rest = rest := by
  induction text generalizing c with
  | nil => exact ⟨c, .empty, hrest⟩
  | cons x text ih =>
    obtain ⟨hx, htext⟩ := List.forall_mem_cons.1 htext
    obtain ⟨c₁, hnext, hrest₁⟩ := Cursor.next?_of_rest hrest
    obtain ⟨c', hmatches, hrest'⟩ := ih htext hrest₁
    refine ⟨c', ?_, hrest'⟩
    cases text with
    | nil =>
      cases hmatches
      exact .one hnext hx
    | cons y text => exact .seq (.one hnext hx) hmatches

lemma run_alt : (alt p q).run c k = (p.run c k).or (q.run c k) := by
  rw [run]
  cases p.run c k <;> rfl

lemma match?_alt : (alt p q).match? c = (p.match? c).or (q.match? c) :=
  run_alt

lemma run_single (x : Char) : (one (.single x)).run c k = (c.skip? [x]).bind k := by
  cases hnext : c.next? with
  | none => simp [run, Cursor.skip?, hnext]
  | some entry =>
    by_cases hx : x = entry.1
    · simp [run, Cursor.skip?, hnext, CharClass.contains, hx]
    · simp [run, Cursor.skip?, hnext, CharClass.contains, hx, Ne.symm hx]

/-- A word matches where it stands. -/
lemma run_word (s : List Char) : (word s).run c k = (c.skip? s).bind k := by
  fun_induction word s generalizing c with
  | case1 => rfl
  | case2 x => exact run_single x
  | case3 x s hs ih =>
    have hword : (fun c' => (word s).run c' k) = fun c' => (c'.skip? s).bind k := funext fun c' => ih
    rw [run, hword, run_single, Cursor.skip?_cons c x s, Option.bind_assoc]

/-- In front of the place behind a match stands the last character of the match. -/
lemma Matches.exists_before (h : p.Matches c c') :
    ∃ text, c.rest = text ++ c'.rest ∧ c'.before = text.getLast?.or c.before := by
  induction h with
  | empty | boundary | stop => exact ⟨[], rfl, rfl⟩
  | one hnext => exact ⟨[_], Cursor.rest_of_next? hnext, Cursor.before_of_next? hnext⟩
  | left _ ih | right _ ih => exact ih
  | seq _ _ ihp ihq | again _ _ _ ihp ihq =>
    obtain ⟨text, htext, hbefore⟩ := ihp
    obtain ⟨text', htext', hbefore'⟩ := ihq
    refine ⟨text ++ text', by rw [htext, htext', List.append_assoc], ?_⟩
    rw [hbefore', hbefore, List.getLast?_append, Option.or_assoc]

/-- The text of a match has no character that the pattern has no use for. -/
lemma Matches.exists_notMem (h : p.Matches c c') (hp : p.avoids x) :
    ∃ text, x ∉ text ∧ c.rest = text ++ c'.rest := by
  induction h with
  | empty | boundary | stop => exact ⟨[], List.not_mem_nil, rfl⟩
  | @one chars c y c' hnext hy =>
    refine ⟨[y], ?_, Cursor.rest_of_next? hnext⟩
    intro hx
    obtain rfl := List.mem_singleton.1 hx
    simp [avoids, hy] at hp
  | left _ ih => exact ih (Bool.and_eq_true_iff.1 hp).1
  | right _ ih => exact ih (Bool.and_eq_true_iff.1 hp).2
  | seq _ _ ihp ihq =>
    obtain ⟨text, hx, htext⟩ := ihp (Bool.and_eq_true_iff.1 hp).1
    obtain ⟨text', hx', htext'⟩ := ihq (Bool.and_eq_true_iff.1 hp).2
    exact ⟨text ++ text', by simp [hx, hx'], by rw [htext, htext', List.append_assoc]⟩
  | again _ _ _ ihp ihq =>
    obtain ⟨text, hx, htext⟩ := ihp hp
    obtain ⟨text', hx', htext'⟩ := ihq hp
    exact ⟨text ++ text', by simp [hx, hx'], by rw [htext, htext', List.append_assoc]⟩

end Pattern

end TriggerScript
