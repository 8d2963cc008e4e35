import Mathlib.Data.List.DropRight
import Mathlib.Logic.Function.Iterate
import WorkspaceProxy.Go.Strings

/-! # Paths

`Clean`, `Dir` and `IsAbs` of package path/filepath on Unix. The loop of `Clean`
reads a path byte by byte and writes to a buffer, in which it goes back to the
last separator for `..`. What the buffer stands for is a stack of names over the
root, over the current directory or over some directory above it (`Lexical`):
`Clean` gives the text of what the elements of a path lead to (`clean_eq`), and
`Dir` of such a text takes the last name away (`dir_render`). -/
namespace WorkspaceProxy.Go.Filepath

/-- The byte `/`. -/
abbrev separator : UInt8 := 47
/-- The byte `.`. -/
abbrev dot : UInt8 := 46

/-! ## Clean -/

/-- What `Clean` has written, and where `..` must stop. -/
structure Buf where
  out : GoString
  dotdot : Nat

/-- `for out.w > dotdot && !IsPathSeparator(out.index(out.w)) { out.w-- }`. -/
def retreat (out : GoString) (dotdot : Nat) : Nat → Nat
  | 0 => 0
  | w + 1 =>
    if dotdot < w + 1 ∧ out[w + 1]? ≠ some separator then retreat out dotdot w else w + 1

/-- The case of an element `..`. -/
def Buf.up (rooted : Bool) (b : Buf) : Buf :=
  if b.dotdot < b.out.length then
    -- can backtrack
    { b with out := b.out.take (retreat b.out b.dotdot (b.out.length - 1)) }
  else if rooted then b
  else
    -- cannot backtrack, but not rooted, so append ..
    let out := (if 0 < b.out.length then b.out ++ [separator] else b.out) ++ [dot, dot]
    ⟨out, out.length⟩

/-- Add slash if needed. -/
def separate (rooted : Bool) (out : GoString) : GoString :=
  if rooted = true ∧ out.length ≠ 1 ∨ rooted = false ∧ out.length ≠ 0 then out ++ [separator]
  else out

/-- Whether an element ends here. -/
def Ended (s : GoString) : Prop := s = [] ∨ s.head? = some separator

instance (s : GoString) : Decidable (Ended s) := inferInstanceAs (Decidable (_ ∨ _))

/-- Where the loop of `Clean` is: where an element may start, inside of one that
it copies, or at the second byte of `..`. -/
inductive Mode
  | start
  | copying
  | skipping

/-- The loop of `Clean`. -/
def loop (rooted : Bool) : Mode → Buf → GoString → Buf
  | _, b, [] => b
  | .skipping, b, _ :: s => loop rooted .start b s
  | .copying, b, c :: s =>
    if c = separator then loop rooted .start b s
    else loop rooted .copying { b with out := b.out ++ [c] } s
  | .start, b, c :: s =>
    if c = separator then loop rooted .start b s
    else if c = dot ∧ Ended s then loop rooted .start b s
    else if c = dot ∧ s.head? = some dot ∧ Ended s.tail then
      loop rooted .skipping (b.up rooted) s
    else loop rooted .copying { b with out := separate rooted b.out ++ [c] } s

/-- `filepath.IsAbs`. -/
def isAbs (path : GoString) : Bool := path.head? == some separator

/-- `filepath.Clean`. -/
def clean (path : GoString) : GoString :=
  if path = [] then [dot]
  else
    let b := if isAbs path then loop true .start ⟨[separator], 1⟩ path.tail
      else loop false .start ⟨[], 0⟩ path
    if b.out = [] then [dot] else b.out

/-- `filepath.Dir`. -/
def dir (path : GoString) : GoString := clean (path.rdropWhile (· ≠ separator))

/-! ## Cleaned paths -/

/-- An element that is neither empty nor `.` or `..`. -/
def IsName (s : GoString) : Prop :=
  s ≠ [] ∧ s ≠ [dot] ∧ s ≠ [dot, dot] ∧ separator ∉ s

instance (s : GoString) : Decidable (IsName s) := inferInstanceAs (Decidable (_ ∧ _))

abbrev Name := { s : GoString // IsName s }

/-- Where a path starts: at the root, or so many directories above the current
one. -/
inductive Start
  | root
  | above (n : Nat)

/-- A path without redundant elements, its last name first. -/
structure Lexical where
  start : Start
  names : List Name

/-- So many elements `..`. -/
def ups : Nat → GoString
  | 0 => []
  | n + 1 => separate false (ups n) ++ [dot, dot]

namespace Start

def rooted : Start → Bool
  | .root => true
  | .above _ => false

def text : Start → GoString
  | .root => [separator]
  | .above n => ups n

def height : Start → Nat
  | .root => 0
  | .above n => n

end Start

namespace Lexical

def push (q : Lexical) (n : Name) : Lexical := { q with names := n :: q.names }

/-- The directory above. -/
def up (q : Lexical) : Lexical :=
  match q.names, q.start with
  | _ :: ns, _ => { q with names := ns }
  | [], .root => q
  | [], .above n => { q with start := .above (n + 1) }

/-- Without its last element. -/
def parent (q : Lexical) : Lexical :=
  match q.names, q.start with
  | _ :: ns, _ => { q with names := ns }
  | [], .root => q
  | [], .above n => { q with start := .above (n - 1) }

/-- Where an element leads to. -/
def enter (q : Lexical) (e : GoString) : Lexical :=
  if h : IsName e then q.push ⟨e, h⟩ else if e = [dot, dot] then q.up else q

def textOver (s : Start) : List Name → GoString
  | [] => s.text
  | n :: ns => separate s.rooted (textOver s ns) ++ n.val

def text (q : Lexical) : GoString := textOver q.start q.names

def render (q : Lexical) : GoString := if q.text = [] then [dot] else q.text

/-- The number of elements. -/
def depth (q : Lexical) : Nat := q.start.height + q.names.length

/-- The buffer of `Clean` that holds a path. -/
def buf (q : Lexical) : Buf := ⟨q.text, q.start.text.length⟩

end Lexical

def startOf (s : GoString) : Lexical := ⟨if isAbs s then .root else .above 0, []⟩

/-- What a path stands for. -/
def lexical (s : GoString) : Lexical := (s.splitOn separator).foldl .enter (startOf s)

/-- What a path without its last element stands for. -/
def lexicalDir (s : GoString) : Lexical := (s.splitOn separator).dropLast.foldl .enter (startOf s)

/-! ## The buffer -/

theorem retreat_eq {out : GoString} {dotdot stop w : Nat} (hle : stop ≤ w)
    (hpast : ∀ i, stop < i → i ≤ w → dotdot < i ∧ out[i]? ≠ some separator)
    (hstop : stop = 0 ∨ ¬ (dotdot < stop ∧ out[stop]? ≠ some separator)) :
    retreat out dotdot w = stop := by
  induction w with
  | zero => exact (Nat.le_zero.mp hle).symm
  | succ w ih =>
    rw [retreat]
    by_cases heq : stop = w + 1
    · rw [← heq, if_neg (hstop.resolve_left (by omega))]
    · rw [if_pos (hpast (w + 1) (by omega) (Nat.le_refl _))]
      exact ih (by omega) fun i hi hw => hpast i hi (by omega)

/-- A byte of the last element is not a separator. -/
theorem getElem?_element {t e : GoString} (he : separator ∉ e) {i : Nat} (hi : t.length ≤ i) :
    (t ++ e)[i]? ≠ some separator := by
  intro h
  rw [List.getElem?_append_right hi] at h
  exact he (List.mem_of_getElem? h)

theorem separate_cases (rooted : Bool) (t : GoString) :
    separate rooted t = t ++ [separator] ∨
      separate rooted t = t ∧ t.length = if rooted then 1 else 0 := by
  unfold separate
  split
  · exact .inl rfl
  · rename_i hno
    refine .inr ⟨rfl, ?_⟩
    cases rooted <;> simpa using hno

/-- Going back over the last element ends before its separator. -/
theorem Buf.up_element {t e : GoString} {rooted : Bool} {dotdot : Nat} (hne : e ≠ [])
    (he : separator ∉ e) (hle : dotdot ≤ t.length) (hge : (if rooted then 1 else 0) ≤ dotdot) :
    Buf.up rooted ⟨separate rooted t ++ e, dotdot⟩ = ⟨t, dotdot⟩ := by
  have hpos := List.length_pos_of_ne_nil hne
  -- before the element is a separator, or what `..` must not take away
  have hbefore : ∃ x, separate rooted t = t ++ x ∧ x.length ≤ 1 ∧
      (x = [separator] ∨ t.length ≤ dotdot) := by
    rcases separate_cases rooted t with hsep | ⟨hsep, hlen⟩
    · exact ⟨_, hsep, Nat.le_refl _, .inl rfl⟩
    · exact ⟨[], by rw [hsep, List.append_nil], Nat.zero_le _, .inr (hlen ▸ hge)⟩
  obtain ⟨x, hsep, hx, hstart⟩ := hbefore
  have hout : (separate rooted t ++ e).length = t.length + x.length + e.length := by
    rw [hsep, List.length_append, List.length_append]
  have hstop : retreat (separate rooted t ++ e) dotdot ((separate rooted t ++ e).length - 1) =
      t.length := by
    refine retreat_eq (by omega) (fun i hi _ => ⟨by omega, ?_⟩) (.inr ?_)
    · exact getElem?_element he (by rw [hsep, List.length_append]; omega)
    · rcases hstart with rfl | hlen
      · simp [hsep]
      · omega
  rw [Buf.up, if_pos (by dsimp only; omega), hstop, hsep]
  simp

namespace Lexical

theorem start_length_le (s : Start) (ns : List Name) :
    s.text.length ≤ (textOver s ns).length := by
  induction ns with
  | nil => exact Nat.le_refl _
  | cons n ns ih =>
    rw [textOver, List.length_append]
    rcases separate_cases s.rooted (textOver s ns) with hsep | ⟨hsep, -⟩
    · rw [hsep, List.length_append]
      omega
    · rw [hsep]
      omega

/-- In the buffer that holds a path, `..` leads to what is above it. -/
theorem buf_up (q : Lexical) : q.buf.up q.start.rooted = q.up.buf := by
  obtain ⟨s, ns⟩ := q
  cases ns with
  | cons n ns =>
    obtain ⟨e, hne, -, -, he⟩ := n
    refine Buf.up_element hne he (start_length_le s ns) ?_
    cases s with
    | root => exact Nat.le_refl _
    | above n => exact Nat.zero_le _
  | nil =>
    cases s with
    | root => rfl
    | above n =>
      simp [buf, text, textOver, up, Buf.up, Start.rooted, Start.text, ups, separate,
        Nat.pos_iff_ne_zero]

theorem buf_push (q : Lexical) (n : Name) :
    (q.push n).buf = { q.buf with out := separate q.start.rooted q.buf.out ++ n.val } := rfl

theorem enter_name (q : Lexical) {e : GoString} (h : IsName e) : q.enter e = q.push ⟨e, h⟩ :=
  dif_pos h

theorem enter_dotdot (q : Lexical) : q.enter [dot, dot] = q.up := rfl

theorem enter_nil (q : Lexical) : q.enter [] = q := rfl

theorem enter_dot (q : Lexical) : q.enter [dot] = q := rfl

theorem enter_rooted (q : Lexical) (e : GoString) :
    (q.enter e).start.rooted = q.start.rooted := by
  unfold enter
  split
  · rfl
  · split
    · unfold up
      split
      · rfl
      · rfl
      · rename_i hs
        rw [hs]
        rfl
    · rfl

end Lexical

/-! ## The loop -/

theorem loop_copying (rooted : Bool) (b : Buf) {e t : GoString} (he : separator ∉ e)
    (ht : Ended t) :
    loop rooted .copying b (e ++ t) = loop rooted .start { b with out := b.out ++ e } t := by
  induction e generalizing b with
  | nil =>
    rw [List.nil_append, List.append_nil]
    rcases ht with rfl | ht
    · rfl
    · cases t with
      | nil => cases ht
      | cons c t =>
        cases Option.some.inj ht
        rfl
  | cons c e ih =>
    have hc : c ≠ separator := fun h => he (by simp [h])
    rw [List.cons_append, loop, if_neg hc, ih _ fun h => he (by simp [h]), List.append_assoc,
      List.singleton_append]

theorem not_ended_append {e : GoString} (hne : e ≠ []) (he : separator ∉ e) (t : GoString) :
    ¬ Ended (e ++ t) := by
  cases e with
  | nil => exact absurd rfl hne
  | cons c e =>
    intro h
    rcases h with h | h
    · cases h
    · exact he (by simp [Option.some.inj h])

theorem IsName.cases {e : GoString} (he : separator ∉ e) :
    e = [] ∨ e = [dot] ∨ e = [dot, dot] ∨ IsName e := by
  unfold IsName
  tauto

/-- One element. -/
theorem loop_element (q : Lexical) {e t : GoString} (he : separator ∉ e) (ht : Ended t) :
    loop q.start.rooted .start q.buf (e ++ t) =
      loop q.start.rooted .start (q.enter e).buf t := by
  rcases IsName.cases he with rfl | rfl | rfl | hname
  · rfl
  · rw [List.singleton_append, loop, if_neg (by decide), if_pos ⟨rfl, ht⟩, Lexical.enter_dot]
  · have hone : ¬ (dot = dot ∧ Ended (dot :: t)) := by
      intro h
      exact not_ended_append (List.cons_ne_nil dot []) (by decide) t h.2
    rw [List.cons_append, List.singleton_append, loop, if_neg (by decide), if_neg hone,
      if_pos ⟨rfl, rfl, ht⟩, loop, Lexical.enter_dotdot, Lexical.buf_up]
  · have hmatch := hname
    obtain ⟨hne, hdot, hdotdot, -⟩ := hmatch
    cases e with
    | nil => exact absurd rfl hne
    | cons c e =>
      have hc : c ≠ separator := fun h => he (by simp [h])
      have he' : separator ∉ e := fun h => he (by simp [h])
      have hone : ¬ (c = dot ∧ Ended (e ++ t)) := by
        intro ⟨hc, hend⟩
        refine not_ended_append (fun h => hdot ?_) he' t hend
        rw [hc, h]
      have htwo : ¬ (c = dot ∧ (e ++ t).head? = some dot ∧ Ended (e ++ t).tail) := by
        intro ⟨hc, hhead, hend⟩
        cases e with
        | nil => exact hdot (by rw [hc])
        | cons c' e =>
          refine not_ended_append (fun h => hdotdot ?_) (fun h => he' (by simp [h])) t hend
          rw [hc, h, Option.some.inj hhead]
      rw [List.cons_append, loop, if_neg hc, if_neg hone, if_neg htwo,
        loop_copying _ _ he' ht, Lexical.enter_name _ hname, Lexical.buf_push, List.append_assoc,
        List.singleton_append]

/-- The elements of a text, one after the other. -/
theorem loop_eq (q : Lexical) (s : GoString) : loop q.start.rooted .start q.buf s =
    ((s.splitOn separator).foldl .enter q).buf := by
  induction hn : s.length using Nat.strong_induction_on generalizing q s with
  | _ n ih =>
    by_cases hmem : separator ∈ s
    · obtain ⟨e, t, rfl, he⟩ := List.eq_append_cons_of_mem hmem
      have hrest := ih t.length (by rw [← hn]; simp; omega) (q.enter e) t rfl
      rw [q.enter_rooted] at hrest
      rw [loop_element q he (.inr rfl), List.splitOn_append_cons_self_of_not_mem he,
        List.foldl_cons, ← hrest, loop, if_pos rfl]
    · have helem := loop_element q hmem (.inl rfl)
      rw [List.append_nil, loop] at helem
      rw [helem, List.splitOn_eq_singleton hmem]
      rfl

/-- **`Clean` gives the text of what the elements of a path lead to.** -/
theorem clean_eq (s : GoString) : clean s = (lexical s).render := by
  by_cases hne : s = []
  · subst hne
    rfl
  · rw [clean, if_neg hne]
    by_cases habs : isAbs s = true
    · obtain ⟨c, t, rfl⟩ := List.exists_cons_of_ne_nil hne
      have hc : c = separator := by simpa [isAbs] using habs
      subst hc
      have hsplit : (separator :: t).splitOn separator = [] :: t.splitOn separator :=
        List.splitOn_append_cons_self_of_not_mem List.not_mem_nil t
      have hloop := loop_eq ⟨.root, []⟩ t
      rw [lexical, startOf, hsplit, List.foldl_cons, Lexical.enter_nil, if_pos habs]
      exact congrArg (fun b : Buf => if b.out = [] then [dot] else b.out) hloop
    · have hloop := loop_eq ⟨.above 0, []⟩ s
      rw [lexical, startOf, if_neg habs, if_neg habs]
      exact congrArg (fun b : Buf => if b.out = [] then [dot] else b.out) hloop

/-! ## Texts of cleaned paths -/

theorem isAbs_of_not_mem {e : GoString} (he : separator ∉ e) : isAbs e = false := by
  cases e with
  | nil => rfl
  | cons c e =>
    have hc : c ≠ separator := fun h => he (by simp [h])
    simpa [isAbs] using hc

/-- A text starts where its first part does. -/
theorem isAbs_separate {rooted : Bool} {t e : GoString} (habs : isAbs t = rooted)
    (he : separator ∉ e) : isAbs (separate rooted t ++ e) = rooted := by
  cases t with
  | nil =>
    subst habs
    exact isAbs_of_not_mem he
  | cons c t =>
    rcases separate_cases rooted (c :: t) with hsep | ⟨hsep, -⟩
    · rw [hsep]
      exact habs
    · rw [hsep]
      exact habs

/-- The last element of a text, and what is before it. -/
theorem splitOn_separate {rooted : Bool} {t e : GoString} (habs : isAbs t = rooted)
    (he : separator ∉ e) : ∃ es, (separate rooted t ++ e).splitOn separator = es ++ [e] ∧
      es.foldl .enter (startOf (separate rooted t ++ e)) = lexical t := by
  have hstart : startOf (separate rooted t ++ e) = startOf t := by
    rw [startOf, startOf, isAbs_separate habs he, habs]
  rw [hstart]
  rcases separate_cases rooted t with hsep | ⟨hsep, hlen⟩
  · refine ⟨t.splitOn separator, ?_, rfl⟩
    rw [hsep, List.append_assoc, List.singleton_append, List.splitOn_append_cons_self,
      List.splitOn_eq_singleton he]
  · rw [hsep]
    cases rooted with
    | true =>
      obtain ⟨c, rfl⟩ := List.length_eq_one_iff.mp hlen
      have hc : c = separator := by simpa [isAbs] using habs
      subst hc
      exact ⟨[[]], List.splitOn_append_cons_self_of_not_mem List.not_mem_nil e |>.trans
        (by rw [List.splitOn_eq_singleton he]; rfl), rfl⟩
    | false =>
      obtain rfl := List.length_eq_zero_iff.mp hlen
      exact ⟨[], List.splitOn_eq_singleton he, rfl⟩

theorem lexical_separate {rooted : Bool} {t e : GoString} (habs : isAbs t = rooted)
    (he : separator ∉ e) : lexical (separate rooted t ++ e) = (lexical t).enter e := by
  obtain ⟨es, hes, hfold⟩ := splitOn_separate habs he
  rw [lexical, hes, List.foldl_append, hfold]
  rfl

theorem lexicalDir_separate {rooted : Bool} {t e : GoString} (habs : isAbs t = rooted)
    (he : separator ∉ e) : lexicalDir (separate rooted t ++ e) = lexical t := by
  obtain ⟨es, hes, hfold⟩ := splitOn_separate habs he
  rw [lexicalDir, hes, List.dropLast_concat, hfold]

theorem isAbs_ups (n : Nat) : isAbs (ups n) = false := by
  induction n with
  | zero => rfl
  | succ n ih => exact isAbs_separate ih (by decide)

theorem lexical_ups (n : Nat) : lexical (ups n) = ⟨.above n, []⟩ := by
  induction n with
  | zero => rfl
  | succ n ih =>
    rw [ups, lexical_separate (isAbs_ups n) (by decide), ih]
    rfl

namespace Lexical

theorem isAbs_textOver (s : Start) (ns : List Name) : isAbs (textOver s ns) = s.rooted := by
  induction ns with
  | nil =>
    cases s with
    | root => rfl
    | above n => exact isAbs_ups n
  | cons n ns ih => exact isAbs_separate ih n.property.2.2.2

theorem lexical_textOver (s : Start) (ns : List Name) : lexical (textOver s ns) = ⟨s, ns⟩ := by
  induction ns with
  | nil =>
    cases s with
    | root => rfl
    | above n => exact lexical_ups n
  | cons n ns ih =>
    rw [textOver, lexical_separate (isAbs_textOver s ns) n.property.2.2.2, ih,
      enter_name _ n.property]
    rfl

theorem text_eq_nil {q : Lexical} (h : q.text = []) : q = ⟨.above 0, []⟩ := by
  have hlex := lexical_textOver q.start q.names
  rw [← text, h] at hlex
  exact hlex.symm

/-- Only the current directory has no text of its own. -/
theorem render_cases (q : Lexical) :
    q = ⟨.above 0, []⟩ ∨ q.render = textOver q.start q.names := by
  unfold render
  split
  · rename_i hnil
    exact .inl (text_eq_nil hnil)
  · exact .inr rfl

/-- A cleaned path stands for itself. -/
theorem lexical_render (q : Lexical) : lexical q.render = q := by
  rcases render_cases q with rfl | htext
  · rfl
  · rw [htext, lexical_textOver]

theorem lexicalDir_render (q : Lexical) : lexicalDir q.render = q.parent := by
  rcases render_cases q with rfl | htext
  · rfl
  · rw [htext]
    obtain ⟨s, ns⟩ := q
    cases ns with
    | cons n ns =>
      refine (lexicalDir_separate (isAbs_textOver s ns) n.property.2.2.2).trans ?_
      exact lexical_textOver s ns
    | nil =>
      cases s with
      | root => rfl
      | above n =>
        cases n with
        | zero => rfl
        | succ n => exact (lexicalDir_separate (isAbs_ups n) (by decide)).trans (lexical_ups n)

end Lexical

/-! ## Dir -/

/-- What `Dir` cuts off. -/
theorem rdropWhile_cases (s : GoString) :
    separator ∉ s ∧ s.rdropWhile (· ≠ separator) = [] ∨
      ∃ t e, s = t ++ separator :: e ∧ separator ∉ e ∧
        s.rdropWhile (· ≠ separator) = t ++ [separator] := by
  induction s using List.reverseRecOn with
  | nil => exact .inl ⟨List.not_mem_nil, rfl⟩
  | append_singleton s c ih =>
    by_cases hc : c = separator
    · subst hc
      refine .inr ⟨s, [], rfl, List.not_mem_nil, ?_⟩
      exact List.rdropWhile_concat_neg _ _ _ (by simp)
    · rw [List.rdropWhile_concat_pos _ _ _ (by simpa using hc)]
      rcases ih with ⟨hs, hnil⟩ | ⟨t, e, rfl, he, hdrop⟩
      · exact .inl ⟨by simp [hs, Ne.symm hc], hnil⟩
      · exact .inr ⟨t, e ++ [c], by simp, by simp [he, Ne.symm hc], hdrop⟩

theorem lexical_rdropWhile (s : GoString) :
    lexical (s.rdropWhile (· ≠ separator)) = lexicalDir s := by
  rcases rdropWhile_cases s with ⟨hs, hdrop⟩ | ⟨t, e, rfl, he, hdrop⟩
  · rw [hdrop, lexicalDir, List.splitOn_eq_singleton hs, startOf, isAbs_of_not_mem hs]
    rfl
  · have hstart : startOf (t ++ [separator]) = startOf (t ++ separator :: e) := by
      cases t with
      | nil => rfl
      | cons c t => rfl
    rw [hdrop, lexical, lexicalDir, List.splitOn_append_cons_self, List.splitOn_append_cons_self,
      List.splitOn_eq_singleton he, List.dropLast_concat, hstart, List.foldl_append]
    rfl

/-- **`Dir` gives the text of what the elements before the last lead to.** -/
theorem dir_eq (s : GoString) : dir s = (lexicalDir s).render := by
  rw [dir, clean_eq, lexical_rdropWhile]

/-- **`Dir` of a cleaned path takes its last element away.** -/
theorem dir_render (q : Lexical) : dir q.render = q.parent.render := by
  rw [dir_eq, Lexical.lexicalDir_render]

/-! ## The chain of parents -/

namespace Lexical

theorem depth_parent (q : Lexical) : q.parent.depth = q.depth - 1 := by
  obtain ⟨s, ns⟩ := q
  cases ns with
  | cons n ns => rfl
  | nil => cases s <;> rfl

theorem parent_of_depth_eq_zero {q : Lexical} (h : q.depth = 0) : q.parent = q := by
  obtain ⟨s, ns⟩ := q
  cases ns with
  | cons n ns => cases h
  | nil =>
    cases s with
    | root => rfl
    | above n =>
      cases n with
      | zero => rfl
      | succ n => cases h

theorem depth_enter_le (q : Lexical) (e : GoString) : (q.enter e).depth ≤ q.depth + 1 := by
  unfold enter
  split
  · exact Nat.le_refl _
  · split
    · obtain ⟨s, ns⟩ := q
      cases ns with
      | cons n ns => simp [up, depth]; omega
      | nil => cases s <;> simp [up, depth, Start.height]
    · omega

theorem depth_foldl_le (q : Lexical) (es : List GoString) :
    (es.foldl enter q).depth ≤ q.depth + es.length := by
  induction es generalizing q with
  | nil => exact Nat.le_refl _
  | cons e es ih =>
    have hrest := ih (q.enter e)
    have hfirst := q.depth_enter_le e
    rw [List.foldl_cons, List.length_cons]
    omega

theorem foldl_rooted (q : Lexical) (es : List GoString) :
    (es.foldl enter q).start.rooted = q.start.rooted := by
  induction es generalizing q with
  | nil => rfl
  | cons e es ih => rw [List.foldl_cons, ih, enter_rooted]

theorem iterate_parent_root (ns : List Name) :
    parent^[ns.length] ⟨.root, ns⟩ = ⟨.root, []⟩ := by
  induction ns with
  | nil => rfl
  | cons n ns ih => exact ih

theorem isAbs_render (q : Lexical) : isAbs q.render = q.start.rooted := by
  rcases render_cases q with rfl | htext
  · rfl
  · rw [htext, isAbs_textOver]

end Lexical

theorem length_splitOn_le (s : GoString) : (s.splitOn separator).length ≤ s.length + 1 := by
  induction s with
  | nil => exact Nat.le_refl _
  | cons c s ih =>
    rw [List.splitOn_cons_eq_if_modifyHead]
    split
    · simpa using ih
    · rw [List.length_modifyHead, List.length_cons]
      omega

theorem depth_lexicalDir_le (s : GoString) : (lexicalDir s).depth ≤ s.length := by
  have hfold := (startOf s).depth_foldl_le (s.splitOn separator).dropLast
  have hsplit := length_splitOn_le s
  have hstart : (startOf s).depth = 0 := by
    unfold startOf
    split <;> rfl
  rw [List.length_dropLast, hstart] at hfold
  rw [lexicalDir]
  omega

theorem rooted_lexicalDir (s : GoString) : (lexicalDir s).start.rooted = isAbs s := by
  rw [lexicalDir, Lexical.foldl_rooted, startOf]
  cases isAbs s <;> rfl

theorem isAbs_dir (s : GoString) : isAbs (dir s) = isAbs s := by
  rw [dir_eq, Lexical.isAbs_render, rooted_lexicalDir]

/-- How far a path is from one that is its own parent. A path that is not cleaned
may have a parent that is no shorter. -/
def rank (s : GoString) : Nat := if dir s = s then 0 else (lexicalDir s).depth + 1

theorem rank_le (s : GoString) : rank s ≤ s.length + 1 := by
  have := depth_lexicalDir_le s
  unfold rank
  split <;> omega

/-- **The rank falls on the way up.** -/
theorem rank_dir (s : GoString) : dir s = s ∨ rank (dir s) < rank s := by
  by_cases hfix : dir s = s
  · exact .inl hfix
  · refine .inr ?_
    have hrank : rank s = (lexicalDir s).depth + 1 := if_neg hfix
    rw [hrank, dir_eq, rank]
    split
    · omega
    · rename_i hmove
      have hpos : (lexicalDir s).depth ≠ 0 := by
        intro hzero
        rw [dir_render, Lexical.parent_of_depth_eq_zero hzero] at hmove
        exact hmove rfl
      rw [Lexical.lexicalDir_render, Lexical.depth_parent]
      omega

theorem dir_iterate (q : Lexical) (k : Nat) : dir^[k] q.render = (Lexical.parent^[k] q).render := by
  have hsemi : Function.Semiconj Lexical.render Lexical.parent dir := fun q => (dir_render q).symm
  exact (hsemi.iterate_right k q).symm

/-- **The parents of an absolute path end at the root.** -/
theorem exists_iterate_root {s : GoString} (habs : isAbs s = true) :
    ∃ k, dir^[k] s = [separator] := by
  have hroot := rooted_lexicalDir s
  rw [habs] at hroot
  cases hq : lexicalDir s with
  | mk start names =>
    rw [hq] at hroot
    cases start with
    | above n => cases hroot
    | root =>
      refine ⟨names.length + 1, ?_⟩
      rw [Function.iterate_succ_apply, dir_eq, hq, dir_iterate, Lexical.iterate_parent_root]
      rfl

/-! ## Join -/

/-- `filepath.Join`: from the first element that is not empty on. -/
def join (elems : List GoString) : GoString :=
  match elems.dropWhile (· = []) with
  | [] => []
  | es => clean (List.intercalate [separator] es)

/-- An element after a separator is entered last. -/
theorem lexical_append {t e : GoString} (ht : t ≠ []) (he : separator ∉ e) :
    lexical (t ++ separator :: e) = (lexical t).enter e := by
  have hstart : startOf (t ++ separator :: e) = startOf t := by
    cases t with
    | nil => exact absurd rfl ht
    | cons c t => rfl
  rw [lexical, hstart, List.splitOn_append_cons_self, List.splitOn_eq_singleton he,
    List.foldl_append]
  rfl

theorem join_name {t a : GoString} (ht : t ≠ []) (ha : IsName a) :
    join [t, a] = ((lexical t).push ⟨a, ha⟩).render := by
  have hjoin : join [t, a] = clean (t ++ separator :: a) := by
    simp [join, ht, List.intercalate]
  rw [hjoin, clean_eq, lexical_append ht ha.2.2.2, Lexical.enter_name _ ha]

theorem join_two_names {t a b : GoString} (ht : t ≠ []) (ha : IsName a) (hb : IsName b) :
    join [t, a, b] = (((lexical t).push ⟨a, ha⟩).push ⟨b, hb⟩).render := by
  have hjoin : join [t, a, b] = clean ((t ++ separator :: a) ++ separator :: b) := by
    simp [join, ht, List.intercalate]
  rw [hjoin, clean_eq, lexical_append (by simp) hb.2.2.2, lexical_append ht ha.2.2.2,
    Lexical.enter_name _ ha, Lexical.enter_name _ hb]

/-- A name below a directory, and a step back up. -/
theorem dir_join_name {t a : GoString} (ht : t ≠ []) (ha : IsName a) :
    dir (join [t, a]) = clean t := by
  rw [join_name ht ha, dir_render, clean_eq]
  rfl

theorem dir_join_two_names {t a b : GoString} (ht : t ≠ []) (ha : IsName a) (hb : IsName b) :
    dir (join [t, a, b]) = join [t, a] := by
  rw [join_two_names ht ha hb, join_name ht ha, dir_render]
  rfl

theorem rooted_lexical (s : GoString) : (lexical s).start.rooted = isAbs s := by
  rw [lexical, Lexical.foldl_rooted, startOf]
  cases isAbs s <;> rfl

theorem isAbs_join {t a b : GoString} (ht : t ≠ []) (ha : IsName a) (hb : IsName b) :
    isAbs (join [t, a, b]) = isAbs t := by
  rw [join_two_names ht ha hb, Lexical.isAbs_render]
  exact rooted_lexical t

end WorkspaceProxy.Go.Filepath
