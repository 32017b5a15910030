import KeyOrder.Proofs.Reports
import Mathlib.Data.List.Nodup

/-!
# A relocator answers each container once

A relocator is asked for the containers of a source one after another, in any order and as often as
one likes.  All that a request leaves behind is the path of its container, whether its edits could
be found or not, so the answer to a request depends on the history only through the question whether
the container was asked for before.

* `Relocator.answers` are the answers to a sequence of requests, and `Relocator.mem_after` says what
  a whole sequence leaves behind;
* `Relocator.answers_once` is the result: a first request is answered as by a relocator that was
  never asked, and every later one with no edits.
-/

namespace KeyOrder

/-! ### Containers of a source -/

/-- The containers that the walk over a source enters. -/
def Source.entered (src : Source) : List Container := src.walk.events.filterMap Walk.entered?

/-- A path belongs to one container of a source. -/
lemma Source.eq_of_path {src : Source} {c d : Container} (hc : c ∈ src.entered)
    (hd : d ∈ src.entered) (h : c.path = d.path) : c = d := by
  have hnodup : (src.entered.map Container.path).Nodup :=
    List.nodup_iff_count.2 fun p => (Walk.atMostOnce_visit src p [] src.tree).1
  exact List.inj_on_of_nodup_map hnodup hc hd h

namespace Relocator

variable {src : Source} {o : Order} {r : Relocator} {c : Container} {cs pre post : List Container}
  {p : List Nat}

/-! ### One request -/

lemma fix_fresh (src : Source) (o : Order) (c : Container) :
    (fresh.fix src o c).1 = Relocation.edits src o c := by
  rw [fix_of_not_mem]
  simp [fresh]

/-- A request adds the path of its container to those that were asked for, and nothing else. -/
lemma mem_done_fix : p ∈ (r.fix src o c).2.done ↔ p ∈ r.done ∨ p = c.path := by
  by_cases h : c.path ∈ r.done
  · rw [fix_of_mem h]
    constructor
    · intro hp
      exact .inl hp
    · rintro (hp | rfl)
      · exact hp
      · exact h
  · rw [fix_of_not_mem h, List.mem_cons, or_comm]

/-! ### A sequence of requests -/

/-- The relocator after a sequence of requests. -/
def after (src : Source) (o : Order) (r : Relocator) (cs : List Container) : Relocator :=
  cs.foldl (fun r c => (r.fix src o c).2) r

/-- The answers to a sequence of requests. -/
def answers (src : Source) (o : Order) : Relocator → List Container → List (Outcome (List Edit))
  | _, [] => []
  | r, c :: cs => (r.fix src o c).1 :: answers src o (r.fix src o c).2 cs

/-- The requests of a sequence with their answers. -/
def dialogue (src : Source) (o : Order) (r : Relocator) (cs : List Container) :
    List (Container × Outcome (List Edit)) :=
  cs.zip (answers src o r cs)

@[simp] lemma dialogue_nil (src : Source) (o : Order) (r : Relocator) :
    dialogue src o r [] = [] := rfl

@[simp] lemma dialogue_cons (src : Source) (o : Order) (r : Relocator) (c : Container)
    (cs : List Container) :
    dialogue src o r (c :: cs) =
      (c, (r.fix src o c).1) :: dialogue src o (r.fix src o c).2 cs := rfl

@[simp] lemma length_answers (src : Source) (o : Order) (r : Relocator) (cs : List Container) :
    (answers src o r cs).length = cs.length := by
  induction cs generalizing r with
  | nil => rfl
  | cons c cs ih => simp [answers, ih]

@[simp] lemma map_fst_dialogue (src : Source) (o : Order) (r : Relocator) (cs : List Container) :
    (dialogue src o r cs).map Prod.fst = cs :=
  List.map_fst_zip (by simp)

lemma dialogue_append (src : Source) (o : Order) (r : Relocator) (cs ds : List Container) :
    dialogue src o r (cs ++ ds) = dialogue src o r cs ++ dialogue src o (r.after src o cs) ds := by
  induction cs generalizing r with
  | nil => rfl
  | cons c cs ih => simp [ih, after]

lemma answers_append (src : Source) (o : Order) (r : Relocator) (cs ds : List Container) :
    answers src o r (cs ++ ds) = answers src o r cs ++ answers src o (r.after src o cs) ds := by
  induction cs generalizing r with
  | nil => rfl
  | cons c cs ih => simp [answers, ih, after]

/-- **What requests leave behind**: the paths of their containers. -/
lemma mem_after : p ∈ (r.after src o cs).done ↔ p ∈ r.done ∨ p ∈ cs.map Container.path := by
  induction cs generalizing r with
  | nil => simp [after]
  | cons c cs ih =>
    change p ∈ ((r.fix src o c).2.after src o cs).done ↔ _
    rw [ih, mem_done_fix, List.map_cons, List.mem_cons, or_assoc]

/-- A request that is the first one for its container is answered as by a fresh relocator. -/
lemma fix_after_of_not_mem (h : c.path ∉ cs.map Container.path) :
    ((fresh.after src o cs).fix src o c).1 = (fresh.fix src o c).1 := by
  rw [fix_fresh, fix_of_not_mem]
  rw [mem_after]
  simpa [fresh] using h

/-- A request for a container that was asked for before is answered with no edits. -/
lemma fix_after_of_mem (h : c.path ∈ cs.map Container.path) :
    ((fresh.after src o cs).fix src o c).1 = .ok [] := by
  rw [fix_of_mem]
  exact mem_after.2 (.inr h)

lemma getElem?_answers (src : Source) (o : Order) (r : Relocator) (pre : List Container)
    (c : Container) (post : List Container) :
    (answers src o r (pre ++ c :: post))[pre.length]? =
      some ((r.after src o pre).fix src o c).1 := by
  rw [answers_append, List.getElem?_append_right (by simp)]
  simp [answers]

/-- Once a container was asked for, all that it is given is no edits. -/
lemma later_answers (src : Source) (o : Order) (cs : List Container) (h : p ∈ r.done) :
    ((dialogue src o r cs).filter (·.1.path == p)).map Prod.snd =
      List.replicate (cs.countP (·.path == p)) (.ok []) := by
  induction cs generalizing r with
  | nil => rfl
  | cons c cs ih =>
    have hrest := ih (r := (r.fix src o c).2) (mem_done_fix.2 (.inl h))
    by_cases hc : c.path = p
    · have hfix : (r.fix src o c).1 = .ok [] := by
        rw [fix_of_mem]
        rwa [hc]
      simp [hc, hfix, hrest, List.replicate_succ]
    · simp [hc, hrest]

/-! ### First requests -/

/-- The requests for containers that no earlier one was for. -/
def firsts {α : Type} : List (Container × α) → List (Container × α)
  | [] => []
  | q :: qs => q :: (firsts qs).filter fun q' => q'.1.path != q.1.path

lemma nodup_firsts {α : Type} (qs : List (Container × α)) :
    ((firsts qs).map fun q => q.1.path).Nodup := by
  induction qs with
  | nil => simp [firsts]
  | cons q qs ih =>
    rw [firsts, List.map_cons, List.nodup_cons]
    constructor
    · simp
    · exact ih.sublist (List.filter_sublist.map _)

/-- A first request is one with no request for its container before it. -/
lemma mem_firsts {α : Type} {qs : List (Container × α)} {q : Container × α} :
    q ∈ firsts qs ↔ ∃ pre post, qs = pre ++ q :: post ∧ ∀ q' ∈ pre, q'.1.path ≠ q.1.path := by
  induction qs with
  | nil => simp [firsts]
  | cons u qs ih =>
    simp only [firsts, List.mem_cons, List.mem_filter, bne_iff_ne, ih]
    constructor
    · rintro (rfl | ⟨⟨pre, post, rfl, hpre⟩, hne⟩)
      · exact ⟨[], qs, rfl, by simp⟩
      · refine ⟨u :: pre, post, rfl, ?_⟩
        intro q' hq'
        rcases List.mem_cons.1 hq' with rfl | hq'
        · exact Ne.symm hne
        · exact hpre q' hq'
    · rintro ⟨pre, post, hqs, hpre⟩
      cases pre with
      | nil =>
        cases hqs
        exact .inl rfl
      | cons v pre =>
        cases hqs
        refine .inr ⟨⟨pre, post, rfl, fun q' hq' => ?_⟩, ?_⟩
        · exact hpre q' (List.mem_cons_of_mem _ hq')
        · exact Ne.symm (hpre u (List.mem_cons_self ..))

/-- What a dialogue says at the place of a request. -/
lemma dialogue_at (src : Source) (o : Order) (r : Relocator) (pre : List Container) (c : Container)
    (post : List Container) :
    dialogue src o r (pre ++ c :: post) = dialogue src o r pre ++
      (c, ((r.after src o pre).fix src o c).1) ::
        dialogue src o ((r.after src o pre).fix src o c).2 post := by
  rw [dialogue_append, dialogue_cons]

lemma mem_of_mem_dialogue {q : Container × Outcome (List Edit)} (h : q ∈ dialogue src o r cs) :
    q.1 ∈ cs := by
  have hmem := List.mem_map_of_mem (f := Prod.fst) h
  rwa [map_fst_dialogue] at hmem

section Entered

variable (hcs : ∀ c ∈ cs, c ∈ src.entered)

include hcs

/-- In a sequence of requests for containers of a source, a container was asked for when its path
was. -/
lemma path_mem_iff (h : cs = pre ++ c :: post) : c.path ∈ pre.map Container.path ↔ c ∈ pre := by
  subst h
  constructor
  · intro hmem
    obtain ⟨d, hd, hpath⟩ := List.mem_map.1 hmem
    rwa [← Source.eq_of_path (hcs d (by simp [hd])) (hcs c (by simp)) hpath]
  · intro hmem
    exact List.mem_map_of_mem hmem

/-- The first requests of a dialogue are for all containers that are asked for, and their answers
are those of a fresh relocator. -/
lemma mem_firsts_dialogue {q : Container × Outcome (List Edit)} :
    q ∈ firsts (dialogue src o fresh cs) ↔ q.1 ∈ cs ∧ q.2 = (fresh.fix src o q.1).1 := by
  rw [mem_firsts]
  constructor
  · rintro ⟨qs, rs, hsplit, hqs⟩
    have hcontainers := congrArg (List.map Prod.fst) hsplit
    rw [map_fst_dialogue, List.map_append, List.map_cons] at hcontainers
    have hlength := congrArg List.length (map_fst_dialogue src o fresh (qs.map Prod.fst))
    rw [List.length_map, List.length_map] at hlength
    rw [hcontainers, dialogue_at] at hsplit
    obtain ⟨-, hhere⟩ := List.append_inj hsplit hlength
    refine ⟨by simp [hcontainers], ?_⟩
    rw [← (List.cons.inj hhere).1]
    refine fix_after_of_not_mem ?_
    simpa using hqs
  · rintro ⟨hq, hanswer⟩
    obtain ⟨pre, post, hsplit, hnot⟩ := List.eq_append_cons_of_mem hq
    have hpaths := mt (path_mem_iff hcs hsplit).1 hnot
    refine ⟨dialogue src o fresh pre, dialogue src o ((fresh.after src o pre).fix src o q.1).2 post,
      ?_, ?_⟩
    · rw [hsplit, dialogue_at, fix_after_of_not_mem hpaths, ← hanswer]
    · intro q' hq' hpath
      exact hpaths (hpath ▸ List.mem_map_of_mem (mem_of_mem_dialogue hq'))

/-- A container that is asked for is given its first answer and then nothing. -/
lemma answers_to (hc : c ∈ cs) :
    ∃ n, ((dialogue src o fresh cs).filter (·.1.path == c.path)).map Prod.snd =
      (fresh.fix src o c).1 :: List.replicate n (.ok []) := by
  obtain ⟨pre, post, hsplit, hnot⟩ := List.eq_append_cons_of_mem hc
  have hpaths := mt (path_mem_iff hcs hsplit).1 hnot
  have hnone : (dialogue src o fresh pre).filter (·.1.path == c.path) = [] := by
    rw [List.filter_eq_nil_iff]
    intro q hq hpath
    refine hpaths (List.mem_map.2 ⟨q.1, mem_of_mem_dialogue hq, ?_⟩)
    simpa using hpath
  have hdone : c.path ∈ ((fresh.after src o pre).fix src o c).2.done :=
    mem_done_fix.2 (.inr rfl)
  have hlater := later_answers src o post hdone
  refine ⟨post.countP (·.path == c.path), ?_⟩
  rw [hsplit, dialogue_at, List.filter_append, hnone, List.nil_append,
    List.filter_cons_of_pos (by simp), List.map_cons, fix_after_of_not_mem hpaths, hlater]

end Entered

end Relocator

/-- **A relocator answers each container once, whatever it was asked before.**  In any sequence of
requests for containers of a source, a request that is the first one for its container is answered
as by a relocator that was never asked, with the same edits or the same fault, and any other with no
edits, also where the first one failed.  So the first requests of a sequence in another order have
the same answers, and a container is given its edits at most once: its first answer and then
nothing. -/
theorem Relocator.answers_once (src : Source) (o : Order) {cs : List Container}
    (hcs : ∀ c ∈ cs, c ∈ src.entered) :
    (∀ pre c post, cs = pre ++ c :: post →
      (c ∉ pre → (answers src o fresh cs)[pre.length]? = some (fresh.fix src o c).1) ∧
        (c ∈ pre → (answers src o fresh cs)[pre.length]? = some (.ok []))) ∧
    (∀ ds : List Container, ds.Perm cs →
      (firsts (ds.zip (answers src o fresh ds))).Perm (firsts (cs.zip (answers src o fresh cs)))) ∧
    ∀ c ∈ cs, ∃ n, ((cs.zip (answers src o fresh cs)).filter (·.1.path == c.path)).map Prod.snd =
      (fresh.fix src o c).1 :: List.replicate n (.ok []) := by
  refine ⟨?_, ?_, fun c hc => answers_to hcs hc⟩
  · intro pre c post hsplit
    have hpaths := path_mem_iff hcs hsplit
    subst hsplit
    rw [getElem?_answers]
    constructor
    · intro hnot
      rw [fix_after_of_not_mem (mt hpaths.1 hnot)]
    · intro hmem
      rw [fix_after_of_mem (hpaths.2 hmem)]
  · intro ds hperm
    have hds : ∀ c ∈ ds, c ∈ src.entered := fun c hc => hcs c (hperm.mem_iff.1 hc)
    refine (List.perm_ext_iff_of_nodup ?_ ?_).2 ?_
    · exact List.Nodup.of_map _ (nodup_firsts _)
    · exact List.Nodup.of_map _ (nodup_firsts _)
    · intro q
      have hleft := mem_firsts_dialogue (o := o) hds (q := q)
      have hright := mem_firsts_dialogue (o := o) hcs (q := q)
      rw [hperm.mem_iff] at hleft
      exact hleft.trans hright.symm

/-- The text `{2:{4:0,3:0},1:0}`. -/
def Sample.heldDisplay : Text :=
  ['\x7b', '2', ':', '\x7b', '4', ':', '0', ',', '3', ':', '0', '\x7d', ',', '1', ':', '0', '\x7d']

/-- The outer display of `{2:{4:0,3:0},1:0}` is asked for twice and the inner one in between; the
second request for the outer one is answered with no edits. -/
theorem answers_once_held :
    ∃ src outer inner, Source.ofText Sample.heldDisplay = .ok src ∧ src.entered = [outer, inner] ∧
      (∀ c ∈ [outer, inner, outer], c ∈ src.entered) ∧
      (Relocator.answers src ⟨.ascending, true, false⟩ .fresh [outer, inner, outer])[2]? =
        some (.ok []) := by
  have hsource : (Source.ofText Sample.heldDisplay).toOption.map (fun src => src.entered.length) =
      some 2 := by
    decide +kernel
  obtain ⟨src, hsrc, hlength⟩ := Outcome.exists_of_toOption_map hsource
  obtain ⟨outer, inner, hentered⟩ := List.length_eq_two.1 hlength
  have hcs : ∀ c ∈ [outer, inner, outer], c ∈ src.entered := by
    rw [hentered]
    simp
  obtain ⟨hanswers, -, -⟩ := Relocator.answers_once src ⟨.ascending, true, false⟩ hcs
  exact ⟨src, outer, inner, hsrc, hentered, hcs,
    (hanswers [outer, inner] outer [] rfl).2 (by simp)⟩

end KeyOrder
