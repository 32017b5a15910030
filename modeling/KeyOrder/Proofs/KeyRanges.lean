import KeyOrder.Proofs.Bracketing
import KeyOrder.Proofs.Detection
import KeyOrder.Proofs.ProgramPlaces
import KeyOrder.Proofs.Shifts
import KeyOrder.Proofs.Wrapping
import KeyOrder.Proofs.WrittenPlaces

/-!
# Where a problem is reported

A problem is reported at the key of an entry.  The range of a key in a display is that of its node;
the range of a keyword is as long as its name, and the name is the compatibility form of the word
that is written.  So it is the written word just when both are of the same length.

A container in a replacement field is walked only where its place is displaced out of the formatted
string.  Then its keys stand anywhere, so nothing is said of where they stand.

* `Entry.KeyInside` and `Entry.KeywordWritten` say this of one entry;
* `verify_key_ranges` says it of all entries and all problems of a text.
-/

namespace KeyOrder

open Text (Spacing)

/-! ### One entry -/

namespace Source

variable {src : Source}

lemma rangeOf_eq_ok {s : Span} {r : Range} :
    src.rangeOf s = .ok r ↔ src.lines.offset s.start = .ok r.start ∧
      src.lines.offset s.stop = .ok r.stop := by
  simp only [rangeOf, Outcome.bind_eq_ok, Outcome.pure_eq_ok]
  constructor
  · rintro ⟨start, hstart, stop, hstop, rfl⟩
    exact ⟨hstart, hstop⟩
  · rintro ⟨hstart, hstop⟩
    exact ⟨r.start, hstart, r.stop, hstop, rfl⟩

end Source

namespace Entry

/-- The key of an entry stands where its node does, inside the entry. -/
structure KeyInside (src : Source) (e : Entry) : Prop where
  key : ∃ n, e.key = some (.expression n) ∧ src.rangeOf n.span = .ok e.keyRange
  start_le : e.range.start ≤ e.keyRange.start
  nonneg : e.keyRange.start ≤ e.keyRange.stop
  le_stop : e.keyRange.stop ≤ e.range.stop

/-- An entry starts with a word that an equals sign follows after spacing, and its key is the
compatibility form of the word. -/
structure KeywordWritten (text : Text) (e : Entry) (word gap rest : Text) : Prop where
  written : text.drop e.range.start = word ++ (gap ++ '=' :: rest)
  word_ne_nil : word ≠ []
  spacing : Spacing gap
  key : e.key = some (.keyword (Unicode.compatibilityForm (word.map Char.toNat)))
  word_inside : e.range.start + word.length ≤ e.range.stop

end Entry

namespace Container

variable {src : Source} {text : Text} {floor : Nat} {n : Node} {e : Entry}

/-- The entry of a key and a value whose node ends no earlier than that of the key. -/
lemma keyInside_of_displayEntry (hsrc : src.Ordered) (hlines : src.lines = .ofText text)
    (hn : n.Ordered) (h : displayEntry src floor n = .ok e) (hkind : e.kind = .property) :
    e.KeyInside src := by
  unfold displayEntry at h
  split at h
  · rename_i k v hchildren
    obtain ⟨hline, hkey, hvalue⟩ := hn k v hchildren
    simp only [wrappedRange, pairEntry, Outcome.bind_eq_ok, Outcome.pure_eq_ok] at h
    obtain ⟨_, ⟨valueRange, hv, rfl⟩, _, ⟨keyRange, hk, rfl⟩, keyRange', hk', rfl⟩ := h
    obtain rfl : keyRange = keyRange' := Except.ok.inj (hk.symm.trans hk')
    obtain ⟨hkstart, hkstop⟩ := Source.rangeOf_eq_ok.1 hk
    obtain ⟨-, hvstop⟩ := Source.rangeOf_eq_ok.1 hv
    rw [hlines] at hkstart hkstop hvstop
    have hle := LineIndex.offset_mono hline hkey hkstart hkstop
    refine ⟨⟨k, rfl, hk⟩, (Source.unwrap_widens hsrc floor keyRange).1, hle, ?_⟩
    refine Nat.le_trans ?_ (Source.unwrap_widens hsrc floor valueRange).2
    have hline' := Place.le_iff.1 hkey
    exact LineIndex.offset_mono (by omega) hvalue hkstop hvstop
  · -- a spread value is no property
    obtain ⟨valueRange, -, h⟩ := Outcome.bind_eq_ok.1 h
    unfold spreadEntry at h
    split at h
    · split at h
      · cases h
        cases hkind
      · cases h
    · cases h
  · cases h

/-- The entry of an argument with a keyword. -/
lemma argumentEntry_eq_ok (h : argumentEntry src floor n = .ok e) (hkind : e.kind = .property) :
    ∃ name range, n.kind = .keyword (some name) ∧ src.rangeOf n.span = .ok range ∧
      e.key = some (.keyword name) ∧ e.range.start = range.start ∧
      range.stop ≤ e.range.stop ∧ e.keyRange = ⟨range.start, range.start + name.length⟩ := by
  unfold argumentEntry at h
  split at h
  · rename_i name span children
    dsimp only at h
    split at h
    · obtain ⟨valueRange, -, h⟩ := Outcome.bind_eq_ok.1 h
      obtain ⟨range, hrange, h⟩ := Outcome.bind_eq_ok.1 h
      cases h
      exact ⟨name, range, rfl, hrange, rfl, rfl, Nat.le_max_left .., rfl⟩
    · cases h
  · obtain ⟨range, -, h⟩ := Outcome.bind_eq_ok.1 h
    cases h
    cases hkind
  · obtain ⟨range, -, h⟩ := Outcome.bind_eq_ok.1 h
    cases h
    cases hkind

/-- The entry of an argument whose keyword stands where it should in the text as the grammar reads
it. -/
lemma keywordWritten_of_argumentEntry (hpaired : text.paired = true)
    (hlines : src.lines = .ofText text) (hn : n.KeysPlaced (Lexeme.normalize text))
    (h : argumentEntry src floor n = .ok e) (hkind : e.kind = .property) :
    ∃ word gap rest, e.KeywordWritten text word gap rest := by
  obtain ⟨name, range, hname, hrange, hkey, hstart, hstop, -⟩ := argumentEntry_eq_ok h hkind
  obtain ⟨hrstart, hrstop⟩ := Source.rangeOf_eq_ok.1 hrange
  rw [hlines] at hrstart hrstop
  obtain ⟨front, word, gap, rest, htext, rfl, hne, -, hgap, hfront, hend⟩ :=
    (hn.keyword hname).exists_written hpaired
  have hlength : e.range.start = front.length := by
    rw [hstart]
    exact Except.ok.inj (hrstart.symm.trans hfront)
  refine ⟨word, gap, rest, ?_, hne, hgap, hkey, ?_⟩
  · rw [hlength, htext, List.drop_left]
  · have hle := hend range.stop hrstop
    rw [List.length_append] at hle
    omega

/-- The entries of a container are made of the children of its node. -/
lemma exists_child_of_build {path : List Nat} {kind : ContainerKind} {k : Container}
    (h : build src path kind n = .ok k) (he : e ∈ k.entries) :
    k.kind = kind ∧ ∃ child ∈ n.children, ∃ floor,
      (kind = .display → displayEntry src floor child = .ok e) ∧
        (kind = .call → argumentEntry src floor child = .ok e) := by
  unfold build at h
  obtain ⟨range, -, h⟩ := Outcome.bind_eq_ok.1 h
  cases kind with
  | display =>
    obtain ⟨es, hes, h⟩ := Outcome.bind_eq_ok.1 h
    cases h
    obtain ⟨child, hchild, hentry⟩ := Outcome.exists_of_mem_mapM hes he
    exact ⟨rfl, child, hchild, range.start, fun _ => hentry, fun h => (by cases h)⟩
  | pattern =>
    obtain ⟨es, hes, h⟩ := Outcome.bind_eq_ok.1 h
    cases h
    obtain ⟨child, hchild, hentry⟩ := Outcome.exists_of_mem_mapM hes he
    exact ⟨rfl, child, hchild, 0, fun h => (by cases h), fun h => (by cases h)⟩
  | call =>
    dsimp only at h
    split at h
    · cases h
    · rename_i function arguments hchildren
      obtain ⟨floor, -, h⟩ := Outcome.bind_eq_ok.1 h
      obtain ⟨es, hes, h⟩ := Outcome.bind_eq_ok.1 h
      cases h
      obtain ⟨child, hchild, hentry⟩ := Outcome.exists_of_mem_mapM hes he
      rw [hchildren]
      exact ⟨rfl, child, List.mem_cons_of_mem function hchild, floor, fun h => (by cases h),
        fun _ => hentry⟩

lemma build_of_ofNode? {path : List Nat} {k : Container}
    (h : ofNode? src path n = .ok (some k)) :
    ∃ kind, kindOf? n = some kind ∧ build src path kind n = .ok k := by
  unfold ofNode? at h
  split at h
  · obtain ⟨range, -, h⟩ := Outcome.bind_eq_ok.1 h
    split at h
    · cases h
    · split at h
      · rename_i kind hkind
        obtain ⟨c, hc, h⟩ := Outcome.bind_eq_ok.1 h
        cases h
        exact ⟨kind, hkind, hc⟩
      · cases h
  · cases h

end Container

/-! ### The entries of a walk -/

/-- Whether a node of a tree lies in a formatted string, or is one. -/
def Node.inTemplate (n : Node) (path : List Nat) : Bool :=
  path.tails.any fun p => ((n.at? p).map fun m => m.kind == .template).getD false

lemma Node.kind_ne_of_inTemplate {n m : Node} {path : List Nat} (hm : n.at? path = some m)
    (h : n.inTemplate path = false) : m.kind ≠ .template := by
  intro hkind
  have hself := List.any_eq_false.1 h path ((List.mem_tails ..).2 List.suffix_rfl)
  rw [hm, Option.map_some, hkind] at hself
  exact hself rfl

/-- Outside of formatted strings all nodes of a tree have their keys in place. -/
lemma Node.AllPlaced.at? {text : Text} {n m : Node} {path : List Nat} (h : n.AllPlaced text)
    (hm : n.at? path = some m) (hpath : n.inTemplate path = false) : m.AllPlaced text := by
  induction path generalizing m with
  | nil =>
    cases hm
    exact h
  | cons i path ih =>
    obtain ⟨parent, hparent, hchild⟩ := at?_cons_eq_some.1 hm
    have houter : n.inTemplate path = false := by
      rw [inTemplate, List.tails_cons, List.any_cons, Bool.or_eq_false_iff] at hpath
      exact hpath.2
    exact (ih hparent houter).of_mem_children (kind_ne_of_inTemplate hparent houter)
      (List.mem_of_getElem? hchild)

lemma Container.enter_mem_told {k l : Container} : .enter k ∈ l.told ↔ k = l := by
  simp [told]

lemma Container.entry_mem_told {k l : Container} {e : Entry} :
    .entry k e ∈ l.told ↔ l = k ∧ e ∈ l.entries := by
  simp [told, and_comm]

namespace Source

variable {src : Source}

/-- A walk without a fault tells the entries of the containers that it enters, and no others. -/
lemma mem_entry_iff (h : src.walk.fault = none) {k : Container} {e : Entry} :
    .entry k e ∈ src.walk.events ↔ .enter k ∈ src.walk.events ∧ e ∈ k.entries := by
  have haccount := account_of_fault_none h
  have hat : ∀ {f : Event}, f ∈ src.walk.events ↔
      f ∈ Event.eventsAt f.container.path src.walk.events := by
    intro f
    simp [Event.eventsAt]
  rw [hat, hat (f := .enter k)]
  by_cases hpath : src.HoldsContainer k.path
  · obtain ⟨n, l, hn, hl, htold⟩ := haccount.container hpath
    rw [Event.container_entry, Event.container_enter, htold, Container.entry_mem_told,
      Container.enter_mem_told]
    constructor
    · rintro ⟨rfl, he⟩
      exact ⟨rfl, he⟩
    · rintro ⟨rfl, he⟩
      exact ⟨rfl, he⟩
  · simp [Event.container_entry, Event.container_enter, haccount.other hpath]

/-- A container that a walk without a fault enters is that of a node. -/
lemma standsIn_of_enter (h : src.walk.fault = none) {k : Container}
    (hk : .enter k ∈ src.walk.events) : k.StandsIn src := by
  obtain ⟨pre, post, hevents⟩ := List.append_of_mem hk
  exact ((account_of_fault_none h).nested hevents).1

lemma enter_of_mem_containers {ks : List Container} (h : src.containers = .ok ks) {k : Container}
    (hk : k ∈ ks) : src.walk.fault = none ∧ .enter k ∈ src.walk.events := by
  unfold containers at h
  split at h
  · cases h
  · rename_i hfault
    obtain rfl := Except.ok.inj h
    obtain ⟨event, hevent, hsome⟩ := List.mem_filterMap.1 hk
    refine ⟨hfault, ?_⟩
    split at hsome
    · cases hsome
      exact hevent
    · cases hsome

end Source

/-! ### Violations -/

namespace Rule

/-- An item is an entry with its name. -/
lemma name_of_mem_named {es : List Entry} {items : List Item} (h : named es = .ok items)
    {item : Item} (hitem : item ∈ items) : item.2 ∈ es ∧ item.2.name = .ok (some item.1) := by
  obtain ⟨names, hnames, h⟩ := Outcome.bind_eq_ok.1 h
  obtain rfl := Outcome.pure_eq_ok.1 h
  obtain ⟨⟨name, e⟩, he, hsome⟩ := List.mem_filterMap.1 hitem
  obtain ⟨n, rfl, rfl⟩ := Option.map_eq_some_iff.1 hsome
  have hall := (List.forall₂_iff_zip.1 (Outcome.mapM_eq_ok.1 hnames).flip).2 he
  exact ⟨(List.of_mem_zip he).2, hall⟩

/-- The second one of two neighbours out of order is an item of the segment. -/
lemma name_of_mem_outOfOrder {o : Order} {segment : List Entry} {found : List (Item × Item)}
    (h : outOfOrder o segment = .ok found) {p : Item × Item} (hp : p ∈ found) :
    p.2.2 ∈ segment ∧ p.2.2.name = .ok (some p.2.1) := by
  obtain ⟨items, hitems, h⟩ := Outcome.bind_eq_ok.1 h
  obtain ⟨verdicts, -, h⟩ := Outcome.bind_eq_ok.1 h
  obtain rfl := Outcome.pure_eq_ok.1 h
  obtain ⟨⟨q, verdict⟩, hq, hverdict⟩ := List.mem_filterMap.1 hp
  obtain rfl : q = p := by
    cases verdict
    · exact Option.some.inj hverdict
    · cases hverdict
  have hneighbours := (List.of_mem_zip hq).1
  exact name_of_mem_named hitems (List.mem_of_mem_tail (List.of_mem_zip hneighbours).2)

/-- A violation is about a property of a container that is no mapping pattern. -/
lemma property_of_mem_violations {c : Configuration} {k : Container} {vs : List Violation}
    {v : Violation} (h : violations c k = .ok vs) (hv : v ∈ vs) :
    k.kind ≠ .pattern ∧ v.item.2 ∈ k.entries ∧ v.item.2.kind = .property ∧
      v.item.2.name = .ok (some v.item.1) := by
  unfold violations at h
  split at h
  · rename_i hcovers
    obtain ⟨found, hfound, h⟩ := Outcome.bind_eq_ok.1 h
    obtain rfl := Outcome.pure_eq_ok.1 h
    obtain ⟨p, hp, rfl⟩ := List.mem_map.1 hv
    obtain ⟨ps, hps, hp⟩ := List.mem_flatten.1 hp
    obtain ⟨segment, hsegment, hout⟩ := Outcome.exists_of_mem_mapM hfound hps
    obtain ⟨hin, hname⟩ := name_of_mem_outOfOrder hout hp
    have hmem : p.2.2 ∈ (segments k.entries).flatten :=
      List.mem_flatten.2 ⟨segment, hsegment, hin⟩
    rw [segments, flatten_splitAt, List.mem_filter] at hmem
    refine ⟨?_, hmem.1, ?_, hname⟩
    · rw [covers, Bool.and_eq_true, bne_iff_ne] at hcovers
      exact hcovers.1
    · cases hkind : p.2.2.kind with
      | property => rfl
      | spread => simp [hkind] at hmem
  · cases h
    cases hv

end Rule

/-- A problem tells of an entry: it names it, and it starts and ends where the key does. -/
structure Problem.Tells (src : Source) (p : Problem) (e : Entry) : Prop where
  named : ∃ c name previous, e.name = .ok (some name) ∧ p.message = Checker.message c name previous
  start : (p.line, p.column) = src.lines.position e.keyRange.start
  stop : (p.endLine, p.endColumn) = src.lines.position e.keyRange.stop

/-- Each problem of a text tells of a property that the walk tells. -/
lemma exists_entry_of_problem {text : Text} {src : Source} (h : Source.read text = .ok src)
    {options : Json.Value} {report : Report} (hreport : verify options text = .ok report)
    {p : Problem} (hp : p ∈ report.problems) :
    ∃ k e, .entry k e ∈ src.walk.events ∧ e.kind = .property ∧ k.kind ≠ .pattern ∧
      p.Tells src e := by
  obtain ⟨values, -, hlint⟩ := Outcome.bind_eq_ok.1 hreport
  obtain ⟨src', st, hsrc, hst, hproblems⟩ := lint_eq_ok hlint
  obtain rfl : src = src' := Except.ok.inj (h.symm.trans (Source.read_of_ofText hsrc))
  obtain ⟨ks, vs, vss, hks, htold, hvss, hperm⟩ := Checker.run_told hst
  -- the problem without its fix is that of a violation
  have hmem : Rule.unfixed p ∈ st.problems.map Rule.unfixed := by
    rw [hproblems] at hp
    exact List.mem_map_of_mem (List.mem_mergeSort.1 hp)
  rw [htold.map_unfixed] at hmem
  obtain ⟨v, hv, hvp⟩ := List.mem_map.1 (by simpa [Checker.State.initial] using hmem)
  obtain ⟨ws, hws, hvws⟩ := List.mem_flatten.1 (hperm.mem_iff.1 hv)
  obtain ⟨k, hk, hkws⟩ := Outcome.exists_of_mem_mapM hvss hws
  obtain ⟨hpattern, hin, hkind, hname⟩ := Rule.property_of_mem_violations hkws hvws
  obtain ⟨hfault, henter⟩ := Source.enter_of_mem_containers hks hk
  refine ⟨k, v.item.2, (Source.mem_entry_iff hfault).2 ⟨henter, hin⟩, hkind, hpattern, ?_⟩
  obtain ⟨-, hmessage, hline, hcolumn, hendLine, hendColumn, -⟩ := Problem.mk.inj hvp
  refine ⟨⟨_, _, _, hname, hmessage.symm⟩, ?_, ?_⟩
  · rw [← hline, ← hcolumn]
  · rw [← hendLine, ← hendColumn]

/-- An entry that is told, with the child of a node that it is made of. -/
lemma Source.exists_child_of_entry {src : Source} (h : src.walk.fault = none) {k : Container}
    {e : Entry} (he : .entry k e ∈ src.walk.events) :
    ∃ n, src.tree.at? k.path = some n ∧ ∃ child ∈ n.children, ∃ floor,
      (k.kind = .display →
        n.kind = .display ∧ Container.displayEntry src floor child = .ok e) ∧
      (k.kind = .call → Container.argumentEntry src floor child = .ok e) := by
  obtain ⟨henter, hin⟩ := (mem_entry_iff h).1 he
  obtain ⟨n, hn, hof⟩ := standsIn_of_enter h henter
  obtain ⟨kind, hkind, hbuild⟩ := Container.build_of_ofNode? hof
  obtain ⟨rfl, child, hchild, floor, hdisplay, hcall⟩ :=
    Container.exists_child_of_build hbuild hin
  refine ⟨n, hn, child, hchild, floor, fun hk => ⟨?_, hdisplay hk⟩, hcall⟩
  rw [hk] at hkind
  exact Container.kind_of_kindOf? hkind

namespace Entry

section

variable {text : Text} {src : Source} (h : Source.read text = .ok src)
  (hwalk : src.walk.fault = none) {k : Container} {e : Entry} (he : .entry k e ∈ src.walk.events)
  (hpath : src.tree.inTemplate k.path = false) (hkind : e.kind = .property)

include h hwalk he hpath hkind

lemma KeyInside.of_entry (hk : k.kind = .display) : e.KeyInside src := by
  obtain ⟨n, hn, child, hchild, floor, hdisplay, -⟩ := Source.exists_child_of_entry hwalk he
  have hplaced := (Node.allPlaced_of_ofText? (Source.tree_of_read h)).at? hn hpath
  obtain ⟨hnkind, hentry⟩ := hdisplay hk
  have hordered := (hplaced.keysPlaced (Node.kind_ne_of_inTemplate hn hpath)).display hnkind
  exact Container.keyInside_of_displayEntry (Source.ordered_of_read h)
    (Source.read_eq_ok h).2.1 (hordered child hchild) hentry hkind

lemma KeywordWritten.of_entry (hpaired : text.paired = true) (hk : k.kind = .call) :
    ∃ word gap rest, e.KeywordWritten text word gap rest := by
  obtain ⟨n, hn, child, hchild, floor, -, hcall⟩ := Source.exists_child_of_entry hwalk he
  have hplaced := (Node.allPlaced_of_ofText? (Source.tree_of_read h)).at? hn hpath
  have hargument := hplaced.of_mem_children (Node.kind_ne_of_inTemplate hn hpath) hchild
  obtain ⟨name, -, hname, -⟩ := Container.argumentEntry_eq_ok (hcall hk) hkind
  have hkeys := hargument.keysPlaced (by rw [hname]; nofun)
  exact Container.keywordWritten_of_argumentEntry hpaired (Source.read_eq_ok h).2.1 hkeys
    (hcall hk) hkind

end

variable {text word gap rest : Text} {e : Entry}

/-- A range from the start of an entry is that of the word there when it is as long. -/
lemma KeywordWritten.slice_eq_iff (h : e.KeywordWritten text word gap rest) (n : Nat) :
    text.slice e.range.start (e.range.start + n) = word ↔ n = word.length := by
  rw [Text.slice, h.written, Nat.add_sub_cancel_left]
  constructor
  · intro htake
    have hlength := congrArg List.length htake
    simp only [List.length_take, List.length_append, List.length_cons] at hlength
    omega
  · rintro rfl
    exact List.take_left

end Entry

/-- **What the range of a reported key is.**  When a text can be walked, the key of each property of
a display outside of formatted strings has the range of its node, inside the entry.  The key of each
property of a call starts where the entry does and is as long as the name of the keyword.  And where
every `\r` belongs to a `\r\n` and the call is in no formatted string, the entry starts with a word
that an equals sign follows, with only white space, comments and continued lines between them, of
which the name is the compatibility form.  So the range is that of the word just when the two are of
the same length, which they are when the word is ASCII, and then it lies inside the entry.

Each problem is reported at the key of such a property. -/
theorem verify_key_ranges {text : Text} {src : Source} (h : Source.read text = .ok src)
    (hwalk : src.walk.fault = none) :
    (∀ k e, .entry k e ∈ src.walk.events → e.kind = .property →
      (k.kind = .display → src.tree.inTemplate k.path = false → e.KeyInside src) ∧
      (k.kind = .call → ∃ name, e.key = some (.keyword name) ∧
        e.keyRange = ⟨e.range.start, e.range.start + name.length⟩ ∧
        (text.paired = true → src.tree.inTemplate k.path = false →
          ∃ word gap rest, e.KeywordWritten text word gap rest ∧
            (src.slice e.keyRange = word ↔ name.length = word.length) ∧
            ((∀ c ∈ word, c.toNat < 0x80) → name.length = word.length) ∧
            (name.length = word.length → e.keyRange.stop ≤ e.range.stop)))) ∧
    ∀ options report, verify options text = .ok report → ∀ p ∈ report.problems,
      ∃ k e, .entry k e ∈ src.walk.events ∧ e.kind = .property ∧ k.kind ≠ .pattern ∧
        p.Tells src e := by
  obtain ⟨htext, -, -⟩ := Source.read_eq_ok h
  refine ⟨fun k e he hkind => ⟨fun hk hpath => ?_, fun hk => ?_⟩,
    fun options report hreport p => exists_entry_of_problem h hreport⟩
  · exact Entry.KeyInside.of_entry h hwalk he hpath hkind hk
  obtain ⟨n, -, child, -, floor, -, hcall⟩ := Source.exists_child_of_entry hwalk he
  obtain ⟨name, range, -, -, hkey, hstart, -, hrange⟩ :=
    Container.argumentEntry_eq_ok (hcall hk) hkind
  rw [← hstart] at hrange
  refine ⟨name, hkey, hrange, fun hpaired hpath => ?_⟩
  obtain ⟨word, gap, rest, hwritten⟩ :=
    Entry.KeywordWritten.of_entry h hwalk he hpath hkind hpaired hk
  obtain rfl : name = Unicode.compatibilityForm (word.map Char.toNat) := by
    simpa [hkey] using hwritten.key
  refine ⟨word, gap, rest, hwritten, ?_, fun hascii => ?_, fun hlength => ?_⟩
  · rw [Source.slice, htext, hrange]
    exact hwritten.slice_eq_iff _
  · rw [Unicode.compatibilityForm, if_pos (by simpa using hascii), List.length_map]
  · rw [hrange, hlength]
    exact hwritten.word_inside

/-- A list of a display with a key in parentheses and a call with a comment and a continued line
before an equals sign: `[{(2):0,1:0},dict(b=1,a#k`, `\` and `=0)]`. -/
def Sample.keyed : Text :=
  ['[', '\x7b', '(', '2', ')', ':', '0', ',', '1', ':', '0', '\x7d', ',', 'd', 'i', 'c', 't', '(',
    'b', '=', '1', ',', 'a', '#', 'k', '\r', '\n', '\\', '\n', '=', '0', ')', ']']

/-- The key in parentheses stands inside its entry, the keyword before the comment is the word
there, and both problems of the text are reported at keys. -/
theorem verify_key_ranges_keyed :
    ∃ src, Source.ofText Sample.keyed = .ok src ∧ src.walk.fault = none ∧
      (∃ k e, .entry k e ∈ src.walk.events ∧ e.range = ⟨2, 7⟩ ∧ e.keyRange = ⟨3, 4⟩ ∧
        e.KeyInside src) ∧
      (∃ k e, .entry k e ∈ src.walk.events ∧ e.range = ⟨22, 31⟩ ∧ e.keyRange = ⟨22, 23⟩ ∧
        ∃ word gap rest, e.KeywordWritten Sample.keyed word gap rest) ∧
      ∃ report, verify .null Sample.keyed = .ok report ∧ report.problems.length = 2 ∧
        ∀ p ∈ report.problems, ∃ k e, .entry k e ∈ src.walk.events ∧ e.kind = .property ∧
          k.kind ≠ .pattern ∧ p.Tells src e := by
  have hsource : (Source.ofText Sample.keyed).toOption.map (fun src =>
      src.walk.fault.isNone && src.walk.events.any (fun
        | .entry k e => e.range == ⟨2, 7⟩ && e.keyRange == ⟨3, 4⟩ && k.kind == .display &&
            e.kind == .property && !src.tree.inTemplate k.path
        | _ => false) && src.walk.events.any fun
        | .entry k e => e.range == ⟨22, 31⟩ && e.keyRange == ⟨22, 23⟩ && k.kind == .call &&
            e.kind == .property && !src.tree.inTemplate k.path
        | _ => false) = some true := by
    decide +kernel
  have hrun : (verify .null Sample.keyed).toOption.map (·.problems.length) = some 2 := by
    decide +kernel
  obtain ⟨src, hsrc, hfacts⟩ := Outcome.exists_of_toOption_map hsource
  obtain ⟨report, hreport, hlength⟩ := Outcome.exists_of_toOption_map hrun
  simp only [Bool.and_eq_true, Option.isNone_iff_eq_none, List.any_eq_true] at hfacts
  obtain ⟨⟨hfault, f, hf, hdisplay⟩, g, hg, hcall⟩ := hfacts
  obtain ⟨hentries, hproblems⟩ := verify_key_ranges (Source.read_of_ofText hsrc) hfault
  refine ⟨src, hsrc, hfault, ?_, ?_, report, hreport, hlength, hproblems _ report hreport⟩
  · cases f with
    | entry k e =>
      simp only [Bool.and_eq_true, beq_iff_eq, Bool.not_eq_true'] at hdisplay
      obtain ⟨⟨⟨⟨hrange, hkey⟩, hk⟩, hkind⟩, hpath⟩ := hdisplay
      exact ⟨k, e, hf, hrange, hkey, (hentries k e hf hkind).1 hk hpath⟩
    | _ => cases hdisplay
  · cases g with
    | entry k e =>
      simp only [Bool.and_eq_true, beq_iff_eq, Bool.not_eq_true'] at hcall
      obtain ⟨⟨⟨⟨hrange, hkey⟩, hk⟩, hkind⟩, hpath⟩ := hcall
      obtain ⟨name, -, -, hwritten⟩ := (hentries k e hg hkind).2 hk
      obtain ⟨word, gap, rest, h, -⟩ := hwritten (by decide) hpath
      exact ⟨k, e, hg, hrange, hkey, word, gap, rest, h⟩
    | _ => cases hcall

/-- Two lines for a syntax tree and one for the index before a call: `#`, `dict(z=1, a=2)` and
`abcd(y)`, with a lone `\r` after the first and `\n` after the others. -/
def Sample.displaced : Text :=
  ['#', '\r', 'd', 'i', 'c', 't', '(', 'z', '=', '1', ',', ' ', 'a', '=', '2', ')', '\n', 'a', 'b',
    'c', 'd', '(', 'y', ')', '\n']

/-- After a lone `\r` the entries of the call are looked for in the next line, and the key of the
second one ends after its entry. -/
theorem keyRange_displaced :
    ∃ src, Source.ofText Sample.displaced = .ok src ∧ src.walk.fault = none ∧
      ∃ k e, .entry k e ∈ src.walk.events ∧ k.kind = .call ∧ e.kind = .property ∧
        e.range = ⟨25, 25⟩ ∧ e.keyRange = ⟨25, 26⟩ := by
  have hsource : (Source.ofText Sample.displaced).toOption.map (fun src =>
      src.walk.fault.isNone && src.walk.events.any fun
        | .entry k e => e.range == ⟨25, 25⟩ && e.keyRange == ⟨25, 26⟩ && k.kind == .call &&
            e.kind == .property
        | _ => false) = some true := by
    decide +kernel
  obtain ⟨src, hsrc, hfacts⟩ := Outcome.exists_of_toOption_map hsource
  simp only [Bool.and_eq_true, Option.isNone_iff_eq_none, List.any_eq_true] at hfacts
  obtain ⟨hfault, f, hf, hcall⟩ := hfacts
  cases f with
  | entry k e =>
    simp only [Bool.and_eq_true, beq_iff_eq] at hcall
    exact ⟨src, hsrc, hfault, k, e, hf, hcall.1.2, hcall.2, hcall.1.1.1, hcall.1.1.2⟩
  | _ => cases hcall

end KeyOrder
