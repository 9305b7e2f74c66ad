import Agentrail.Afk.Replay
import Agentrail.Py.JsonScan

/-!
# Journals of sessions that crash (`afk/journal.py`)

A crash cuts the last line that a session writes anywhere; the next session
appends to what is there.  A line that was cut off and what follows it up to the
next newline never read as JSON (`Garbled`): all of it is dropped, the complete
record after the cut included.  `journal_survives` says exactly which journals
lose nothing: those in which sessions after a cut line complete no record.
-/

namespace Agentrail.Afk

open Py

/-! ## Sessions -/

section
variable (host : Host) (sid : Text)

/-- What `_record` appends for a dispatch. -/
def newEvents (store : Recorded) (d : Action × Text) : List Json :=
  match reduce store.state d.1 with
  | .error _ => []
  | .ok state =>
    match actionToDict d.1 with
    | none => []
    | some j => [actionEvent host sid store.seq d.2 j state]

def eventsFrom (store : Recorded) : List (Action × Text) → List Json
  | [] => []
  | d :: ds => newEvents host sid store d ++ eventsFrom (dispatch host sid store d) ds

end

/-- A session: the state it starts from, its name, its dispatches with their times, and how much of
the last line that it writes is on the disk when it ends. -/
structure Session where
  state : AfkState
  name : Option Text
  ts : Text
  dispatches : List (Action × Text)
  onDisk : Nat

section
variable (host : Host)

def Session.init (s : Session) : Json := initEvent host (sessionId host s.name) s.ts s.state

def Session.actions (s : Session) : List Json :=
  eventsFrom host (sessionId host s.name)
    (attachJournal host s.state [] (sessionId host s.name) s.ts) s.dispatches

/-- The records that the session writes whole, and the last one. -/
def Session.before (s : Session) : List Json := (s.init host :: s.actions host).dropLast

def Session.last (s : Session) : Json := (s.actions host).getLastD (s.init host)

/-- What the session appends to the journal. -/
def Session.text (s : Session) : Text :=
  linesOf (s.before host) ++ (line (s.last host)).take s.onDisk

/-- The records that are all there. -/
def Session.written (s : Session) : List Json :=
  s.before host ++ if (dumps compact (s.last host)).length ≤ s.onDisk then [s.last host] else []

theorem Session.split (s : Session) :
    s.before host ++ [s.last host] = s.init host :: s.actions host := by
  unfold Session.before Session.last
  rcases List.eq_nil_or_concat (s.actions host) with h | ⟨es, e, h⟩
  · rw [h]
    rfl
  · rw [h, List.concat_eq_append, ← List.cons_append, List.dropLast_concat, List.getLastD_concat]

end

/-! ## Garbled lines -/

/-- An entry of the journal: its version comes first. -/
def IsEvent (e : Json) : Prop := IsRecord e ∧ ∃ fields, e = .dict (("v".toList, .int 1) :: fields)

theorem event_text (e : Json) (h : IsEvent e) :
    ∃ b, dumps compact e = '{' :: '"' :: 'v' :: b ∧
      scan (.out 1) ('"' :: 'v' :: b) = some (.out 0) := by
  obtain ⟨⟨hplain, -⟩, fields, rfl⟩ := h
  obtain ⟨b, hb⟩ : ∃ b, dumps compact (.dict (("v".toList, .int 1) :: fields)) =
      '{' :: '"' :: 'v' :: b := ⟨_, rfl⟩
  refine ⟨b, hb, ?_⟩
  have hloads := loads_dumps _ hplain
  rw [hb] at hloads
  exact loads_scan _ _ hloads

/-- What is on the disk of a line that was cut off before its newline. -/
def Piece (p : Text) : Prop := p ≠ [] ∧ ∃ e, IsEvent e ∧ p <+: dumps compact e

theorem IsEvent.piece {e : Json} (h : IsEvent e) : Piece (dumps compact e) := by
  obtain ⟨b, hb, -⟩ := event_text e h
  exact ⟨by rw [hb]; exact List.cons_ne_nil _ _, e, h, List.prefix_refl _⟩

/-- A line that starts an object and is none. -/
def Garbled (t : Text) : Prop :=
  Printable t ∧ ∃ b, t = '{' :: b ∧ scan (.out 1) b ≠ some (.out 0)

/-- Inside an object or a string, a further piece does not close it. -/
theorem piece_open (m : Mode) (p : Text) (hm : m ≠ .out 0) (hp : Piece p) :
    scan m p ≠ some (.out 0) := by
  obtain ⟨hne, e, he, s, hs⟩ := hp
  obtain ⟨b, hb, hscan⟩ := event_text e he
  rw [hb] at hs
  cases p with
  | nil => exact absurd rfl hne
  | cons c p =>
    obtain ⟨rfl, htail⟩ := List.cons.inj hs
    change p ++ s = '"' :: 'v' :: b at htail
    have hstr : ∀ d, scan (.str d) p ≠ some (.out 0) := by
      intro d h
      cases p with
      | nil => cases h
      | cons c p =>
        obtain ⟨rfl, hrest⟩ := List.cons.inj htail
        clear htail hs
        cases p with
        | nil => cases h
        | cons c p =>
          obtain ⟨hc, -⟩ := List.cons.inj hrest
          change ((Mode.out (d + 1)).step c).bind _ = _ at h
          rw [hc, show (Mode.out (d + 1)).step 'v' = none from rfl] at h
          cases h
    cases m with
    | out d =>
      cases d with
      | zero => exact absurd rfl hm
      | succ d =>
        rw [← htail, scan_append] at hscan
        obtain ⟨m', hm', -⟩ := Option.bind_eq_some_iff.mp hscan
        have hshift := scan_shift _ _ _ (d + 1) hm'
        show scan (.out (d + 2)) p ≠ _
        rw [show Mode.out (d + 2) = (Mode.out 1).shift (d + 1) by
          unfold Mode.shift
          congr 1
          omega, hshift]
        cases m' <;> simp [Mode.shift]
    | str d => exact hstr d
    | esc d => exact hstr d

theorem Piece.printable {p : Text} (h : Piece p) : Printable p := by
  obtain ⟨-, e, he, hp⟩ := h
  exact fun c hc => printable_dumps e he.1.1 c (hp.subset hc)

theorem Garbled.append {t p : Text} (h : Garbled t) (hp : Piece p) : Garbled (t ++ p) := by
  obtain ⟨hprint, b, rfl, hb⟩ := h
  refine ⟨hprint.append hp.printable, b ++ p, rfl, ?_⟩
  rw [scan_append]
  cases hm : scan (.out 1) b with
  | none => exact fun h => by cases h
  | some m => exact piece_open m p (fun h => hb (by rw [hm, h])) hp

/-- Nothing but a newline may follow a record. -/
theorem garbled_after_record (e : Json) (p : Text) (he : IsEvent e) (hp : Piece p) :
    Garbled (dumps compact e ++ p) := by
  obtain ⟨b, hb, hscan⟩ := event_text e he
  refine ⟨he.piece.printable.append hp.printable, '"' :: 'v' :: b ++ p, by rw [hb]; rfl, ?_⟩
  rw [scan_append, hscan]
  obtain ⟨hne, e', he', s, hs⟩ := hp
  obtain ⟨b', hb', -⟩ := event_text e' he'
  rw [hb'] at hs
  cases p with
  | nil => exact absurd rfl hne
  | cons c p =>
    obtain ⟨rfl, -⟩ := List.cons.inj hs
    exact fun h => by cases h

theorem scan_blank (t : Text) (m : Mode) (h : scan (.out 0) t = some m) :
    ∀ c ∈ t, isJsonSpace c = true := by
  induction t with
  | nil => exact fun c hc => by cases hc
  | cons c t ih =>
    obtain ⟨n, hstep, hrest⟩ := Option.bind_eq_some_iff.mp h
    change (if isJsonSpace c then some (Mode.out 0) else none) = some n at hstep
    split at hstep
    · next hc =>
      obtain rfl := Option.some.inj hstep
      intro d hd
      rcases List.mem_cons.mp hd with rfl | hd
      · exact hc
      · exact ih hrest d hd
    · cases hstep

/-- A record that was cut off. -/
def Torn (p : Text) : Prop := p ≠ [] ∧ ∃ e s, IsEvent e ∧ s ≠ [] ∧ dumps compact e = p ++ s

theorem Torn.piece {p : Text} (h : Torn p) : Piece p := by
  obtain ⟨hne, e, s, he, -, hs⟩ := h
  exact ⟨hne, e, he, s, hs.symm⟩

theorem Torn.garbled {p : Text} (h : Torn p) : Garbled p := by
  have hprint := h.piece.printable
  obtain ⟨hne, e, s, he, hs, htext⟩ := h
  obtain ⟨b, hb, hscan⟩ := event_text e he
  obtain ⟨f, fields, hrec⟩ := he.1.2
  obtain ⟨t, ht⟩ := dumps_dict_ends (f :: fields) (List.cons_ne_nil f fields)
  rw [← hrec] at ht
  have hlast : '}' ∈ s := by
    have hsplit : p ++ s = ('{' :: t) ++ ['}'] := by
      rw [← htext, ht]
      rfl
    have hend := congrArg List.getLast? hsplit
    rw [List.getLast?_append_of_ne_nil _ hs, List.getLast?_concat] at hend
    exact List.mem_of_getLast? hend
  obtain ⟨c, p, rfl⟩ := List.exists_cons_of_ne_nil hne
  rw [hb, List.cons_append] at htext
  obtain ⟨rfl, hrest⟩ := List.cons.inj htext
  refine ⟨hprint, p, rfl, ?_⟩
  intro hclosed
  rw [hrest, scan_append, hclosed] at hscan
  exact absurd (scan_blank s _ hscan '}' hlast) (by decide)

/-! ## Reading -/

theorem isJsonSpace_of_printable {t : Text} (h : Printable t) (c : Char) (hc : c ∈ t)
    (hspace : isSpace c = true) : isJsonSpace c = true := by
  have hrange := h c hc
  have h32 : c.toNat = 32 := by
    unfold isSpace at hspace
    simp only [Bool.or_eq_true, Bool.and_eq_true, decide_eq_true_eq, beq_iff_eq] at hspace
    omega
  have heq : c = ' ' := by
    rw [← Char.ofNat_toNat c, h32]
  rw [heq]
  rfl

/-- A garbled line is no JSON. -/
theorem Garbled.loads {t : Text} (h : Garbled t) : Py.loads (strip t) = none := by
  obtain ⟨hprint, b, rfl, hb⟩ := h
  have hsplit : ∃ sp, '{' :: b = strip ('{' :: b) ++ sp ∧ ∀ c ∈ sp, isSpace c = true := by
    refine ⟨(('{' :: b).reverse.takeWhile isSpace).reverse, ?_, ?_⟩
    · show _ = ((('{' :: b).dropWhile isSpace).reverse.dropWhile isSpace).reverse ++ _
      rw [List.dropWhile_cons_of_neg (by decide), ← List.reverse_append,
        List.takeWhile_append_dropWhile, List.reverse_reverse]
    · intro c hc
      exact List.mem_takeWhile_imp (List.mem_reverse.mp hc)
  obtain ⟨sp, hsplit, hspace⟩ := hsplit
  generalize strip ('{' :: b) = u at hsplit ⊢
  cases u with
  | nil =>
    have hbrace := hspace '{' (by
      rw [List.nil_append] at hsplit
      rw [← hsplit]
      exact List.mem_cons_self)
    exact absurd hbrace (by decide)
  | cons c u =>
    obtain ⟨rfl, rfl⟩ := List.cons.inj hsplit
    cases hread : Py.loads ('{' :: u) with
    | none => rfl
    | some v =>
      refine absurd ?_ hb
      have hblank := (Moves.stay (m := .out 0) sp [] fun c hc => step_space 0 c
        (isJsonSpace_of_printable hprint c (by simp [hc]) (hspace c hc)))
      obtain ⟨w, hw, hscan⟩ := hblank
      rw [List.append_nil, List.append_nil] at hw
      show scan (.out 1) (u ++ sp) = _
      rw [scan_append, loads_scan u v hread, hw]
      exact hscan

theorem Garbled.readEvents_line {t : Text} (h : Garbled t) (rest : Text) :
    readEvents (t ++ '\n' :: rest) = readEvents rest := by
  unfold readEvents
  rw [splitlines_line t rest h.1.not_isLineBreak, List.filterMap_cons]
  rw [h.loads, ite_self]

theorem splitlines_last (t : Text) (hne : t ≠ []) (h : ∀ c ∈ t, isLineBreak c = false) :
    splitlines t = [t] := by
  have haux : ∀ (t cur : Text), (∀ c ∈ t, isLineBreak c = false) → cur ++ t ≠ [] →
      splitlinesAux cur t = [cur.reverse ++ t] := by
    intro t
    induction t with
    | nil =>
      intro cur _ hcur
      rw [List.append_nil] at hcur ⊢
      exact if_neg hcur
    | cons c t ih =>
      intro cur ht _
      have hc := ht c List.mem_cons_self
      have hne : c ≠ '\r' := by
        rintro rfl
        exact absurd hc (by decide)
      rw [splitlinesAux_cons cur c _ fun s' h _ => hne h, hc, if_neg Bool.false_ne_true,
        ih (c :: cur) (fun d hd => ht d (List.mem_cons_of_mem c hd)) (by simp)]
      simp
  exact haux t [] h hne

theorem Garbled.readEvents_end {t : Text} (h : Garbled t) : readEvents t = [] := by
  have hne : t ≠ [] := by
    obtain ⟨-, b, rfl, -⟩ := h
    exact List.cons_ne_nil _ _
  unfold readEvents
  rw [splitlines_last t hne h.1.not_isLineBreak, List.filterMap_cons, List.filterMap_nil,
    h.loads, ite_self]

theorem readEvents_record (e : Json) (h : IsRecord e) : readEvents (dumps compact e) = [e] := by
  obtain ⟨hplain, f, fields, rfl⟩ := h
  have hstrip := strip_dumps_dict (f :: fields) (List.cons_ne_nil f fields)
  have hne : dumps compact (.dict (f :: fields)) ≠ [] := by
    obtain ⟨t, ht⟩ := dumps_dict_ends (f :: fields) (List.cons_ne_nil f fields)
    rw [ht]
    exact List.cons_ne_nil _ _
  unfold readEvents
  rw [splitlines_last _ hne (printable_dumps _ hplain).not_isLineBreak, List.filterMap_cons,
    List.filterMap_nil, hstrip, if_neg hne, loads_dumps _ hplain]

theorem readEvents_lines (es : List Json) (h : ∀ e ∈ es, IsEvent e) (rest : Text) :
    readEvents (linesOf es ++ rest) = es ++ readEvents rest := by
  induction es with
  | nil => rfl
  | cons e es ih =>
    have htext : linesOf (e :: es) ++ rest = line e ++ (linesOf es ++ rest) :=
      List.append_assoc (line e) (linesOf es) rest
    rw [htext, readEvents_line e _ (h e List.mem_cons_self).1,
      ih fun d hd => h d (List.mem_cons_of_mem e hd)]
    rfl

/-! ## What a session leaves -/

/-- The text of a session and its complete records. -/
inductive Shape : Text → List Json → Prop
  | clean (es : List Json) : (∀ e ∈ es, IsEvent e) → Shape (linesOf es) es
  | torn (es : List Json) (p : Text) : (∀ e ∈ es, IsEvent e) → Torn p →
      Shape (linesOf es ++ p) es
  /-- only the newline is missing -/
  | whole (es : List Json) (e : Json) : (∀ e ∈ es, IsEvent e) → IsEvent e →
      Shape (linesOf es ++ dumps compact e) (es ++ [e])

/-- What a session leaves lets the later one lose nothing. -/
def Spares (s s' : Text × List Json) : Prop :=
  s.1 ≠ linesOf s.2 → s'.2 = [] ∧ (s.1 ++ ['\n'] = linesOf s.2 → s'.1 = [])

theorem linesOf_append (es es' : List Json) : linesOf (es ++ es') = linesOf es ++ linesOf es' :=
  List.flatMap_append

theorem linesOf_singleton (e : Json) : linesOf [e] = dumps compact e ++ ['\n'] :=
  List.append_nil _

theorem linesOf_eq_nil (es : List Json) (h : linesOf es = []) : es = [] := by
  cases es with
  | nil => rfl
  | cons e es => exact absurd (List.append_eq_nil_iff.mp h).1 (line_ne_nil e)

theorem spares_clean (es : List Json) (s' : Text × List Json) : Spares (linesOf es, es) s' :=
  fun h => absurd rfl h

theorem spares_torn (es : List Json) (p : Text) (hp : Torn p) (s' : Text × List Json) :
    Spares (linesOf es ++ p, es) s' ↔ s'.2 = [] := by
  constructor
  · intro h
    exact (h fun heq => hp.1 (List.append_right_eq_self.mp heq)).1
  · intro h _
    refine ⟨h, fun heq => ?_⟩
    change linesOf es ++ p ++ ['\n'] = linesOf es at heq
    rw [List.append_assoc] at heq
    exact absurd (List.append_right_eq_self.mp heq) (by simp)

theorem Shape.written_nil {s : Text × List Json} (h : Shape s.1 s.2) (hnil : s.1 = []) :
    s.2 = [] := by
  obtain ⟨t, w⟩ := s
  change Shape t w at h
  change t = [] at hnil
  cases h with
  | clean _ _ => exact linesOf_eq_nil w hnil
  | torn es p _ hp => exact absurd (List.append_eq_nil_iff.mp hnil).2 hp.1
  | whole es e _ he => exact absurd (List.append_eq_nil_iff.mp hnil).2 he.piece.1

theorem spares_whole (es : List Json) (e : Json) (s' : Text × List Json)
    (hs' : Shape s'.1 s'.2) :
    Spares (linesOf es ++ dumps compact e, es ++ [e]) s' ↔ s'.1 = [] := by
  have htext : linesOf es ++ dumps compact e ++ ['\n'] = linesOf (es ++ [e]) := by
    rw [linesOf_append, linesOf_singleton, List.append_assoc]
  constructor
  · intro h
    refine (h ?_).2 htext
    show linesOf es ++ dumps compact e ≠ linesOf (es ++ [e])
    rw [← htext]
    exact fun heq => absurd (congrArg List.length heq) (by simp)
  · intro h _
    exact ⟨hs'.written_nil h, fun _ => h⟩

/-! ## What the sessions leave together -/

def texts (ss : List (Text × List Json)) : Text := ss.flatMap Prod.fst

def records (ss : List (Text × List Json)) : List Json := ss.flatMap Prod.snd

/-- How much is read of sessions, from a new line and after what is left of a line: all of it in the
good case, and less of it in the other. -/
structure ReadBack (ss : List (Text × List Json)) : Prop where
  clean : ss.Pairwise Spares ∧ readEvents (texts ss) = records ss ∨
    ¬ss.Pairwise Spares ∧ (readEvents (texts ss)).length < (records ss).length
  garbled : ∀ t, Garbled t →
    (∀ s ∈ ss, s.2 = []) ∧ readEvents (t ++ texts ss) = [] ∨
    ¬(∀ s ∈ ss, s.2 = []) ∧ (readEvents (t ++ texts ss)).length < (records ss).length
  whole : ∀ e, IsEvent e →
    (∀ s ∈ ss, s.1 = []) ∧ readEvents (dumps compact e ++ texts ss) = [e] ∨
    ¬(∀ s ∈ ss, s.1 = []) ∧
      (readEvents (dumps compact e ++ texts ss)).length < (records ss).length + 1

theorem ReadBack.clean_le {ss : List (Text × List Json)} (h : ReadBack ss) :
    (readEvents (texts ss)).length ≤ (records ss).length := by
  rcases h.clean with ⟨-, heq⟩ | ⟨-, hlt⟩
  · rw [heq]
  · exact hlt.le

theorem ReadBack.garbled_le {ss : List (Text × List Json)} (h : ReadBack ss) (t : Text)
    (ht : Garbled t) : (readEvents (t ++ texts ss)).length ≤ (records ss).length := by
  rcases h.garbled t ht with ⟨-, heq⟩ | ⟨-, hlt⟩
  · rw [heq]
    exact Nat.zero_le _
  · exact hlt.le

theorem ReadBack.whole_le {ss : List (Text × List Json)} (h : ReadBack ss) (e : Json)
    (he : IsEvent e) :
    (readEvents (dumps compact e ++ texts ss)).length ≤ (records ss).length + 1 := by
  rcases h.whole e he with ⟨-, heq⟩ | ⟨-, hlt⟩
  · rw [heq, List.length_singleton]
    omega
  · exact hlt.le

/-- A line that any piece garbles. -/
def Dirty (t : Text) : Prop := ∀ p, Piece p → Garbled (t ++ p)

/-- After a dirty line the first record of a session is lost. -/
theorem dirty_line (t : Text) (ht : Dirty t) (e : Json) (es : List Json) (rest : Text)
    (h : ∀ d ∈ e :: es, IsEvent d) :
    readEvents (t ++ (linesOf (e :: es) ++ rest)) = es ++ readEvents rest := by
  have htext : t ++ (linesOf (e :: es) ++ rest) =
      (t ++ dumps compact e) ++ '\n' :: (linesOf es ++ rest) := by
    show t ++ ((dumps compact e ++ ['\n'] ++ linesOf es) ++ rest) = _
    simp only [List.append_assoc, List.singleton_append]
    rfl
  rw [htext, (ht _ (h e List.mem_cons_self).piece).readEvents_line,
    readEvents_lines es fun d hd => h d (List.mem_cons_of_mem e hd)]

/-- A session that writes something after a dirty line loses its first record, or leaves the line
garbled. -/
theorem dirty_session (ss : List (Text × List Json)) (hss : ReadBack ss) (t : Text) (ht : Dirty t)
    (s : Text × List Json) (hs : Shape s.1 s.2) (hne : s.1 ≠ []) :
    (s.2 = [] ∧ ∃ u, Garbled u ∧ readEvents (t ++ (s.1 ++ texts ss)) = readEvents (u ++ texts ss)) ∨
    (s.2 ≠ [] ∧
      (readEvents (t ++ (s.1 ++ texts ss))).length < s.2.length + (records ss).length) := by
  obtain ⟨x, w⟩ := s
  change Shape x w at hs
  change x ≠ [] at hne
  show (w = [] ∧ ∃ u, Garbled u ∧ readEvents (t ++ (x ++ texts ss)) = _) ∨
    (w ≠ [] ∧ (readEvents (t ++ (x ++ texts ss))).length < w.length + _)
  cases hs with
  | clean _ hes =>
    cases w with
    | nil => exact absurd rfl hne
    | cons e es =>
      refine .inr ⟨List.cons_ne_nil e es, ?_⟩
      have hle := hss.clean_le
      rw [dirty_line t ht e es _ hes, List.length_append, List.length_cons]
      omega
  | torn _ p hes hp =>
    cases w with
    | nil =>
      refine .inl ⟨rfl, t ++ p, ht p hp.piece, ?_⟩
      show readEvents (t ++ (p ++ texts ss)) = _
      rw [List.append_assoc]
    | cons e es =>
      refine .inr ⟨List.cons_ne_nil e es, ?_⟩
      have hle := hss.garbled_le p hp.garbled
      rw [List.append_assoc, dirty_line t ht e es _ hes, List.length_append, List.length_cons]
      omega
  | whole es e hes he =>
    refine .inr ⟨List.append_ne_nil_of_right_ne_nil es (List.cons_ne_nil e []), ?_⟩
    rw [List.append_assoc, List.length_append, List.length_singleton]
    cases es with
    | nil =>
      have hle := hss.garbled_le _ (ht _ he.piece)
      rw [List.append_assoc] at hle
      show (readEvents (t ++ (dumps compact e ++ texts ss))).length < _
      rw [List.length_nil]
      omega
    | cons d es =>
      have hle := hss.whole_le e he
      rw [dirty_line t ht d es _ hes, List.length_append, List.length_cons]
      omega

theorem Garbled.dirty {t : Text} (h : Garbled t) : Dirty t := fun _ => h.append

theorem pairwise_spares_of_nil (ss : List (Text × List Json)) (h : ∀ s ∈ ss, s.2 = []) :
    ss.Pairwise Spares := by
  refine List.Pairwise.imp_of_mem ?_ (List.pairwise_of_forall fun _ _ => trivial)
  intro s s' hs hs' _ _
  refine ⟨h s' hs', fun heq => ?_⟩
  rw [h s hs] at heq
  exact absurd (List.append_eq_nil_iff.mp heq).2 (by simp)

/-- **What sessions leave together is read back**, all of it or less, by induction on them. -/
theorem readBack (ss : List (Text × List Json)) (hss : ∀ s ∈ ss, Shape s.1 s.2) : ReadBack ss := by
  induction ss with
  | nil =>
    refine ⟨.inl ⟨List.Pairwise.nil, rfl⟩, fun t ht => .inl ⟨by simp, ?_⟩,
      fun e he => .inl ⟨by simp, ?_⟩⟩
    · rw [show t ++ texts [] = t from List.append_nil t]
      exact ht.readEvents_end
    · rw [show dumps compact e ++ texts [] = dumps compact e from List.append_nil _]
      exact readEvents_record e he.1
  | cons s ss ih =>
    have hs := hss s List.mem_cons_self
    have hrest := ih fun s' hs' => hss s' (List.mem_cons_of_mem s hs')
    have htexts : texts (s :: ss) = s.1 ++ texts ss := rfl
    have hrecords : (records (s :: ss)).length = s.2.length + (records ss).length :=
      List.length_append
    refine ⟨?_, fun t ht => ?_, fun e he => ?_⟩
    · -- from a new line
      rw [List.pairwise_cons, hrecords, htexts]
      obtain ⟨x, w⟩ := s
      change Shape x w at hs
      show (_ ∧ readEvents (x ++ texts ss) = w ++ records ss) ∨
        (_ ∧ (readEvents (x ++ texts ss)).length < w.length + (records ss).length)
      cases hs with
      | clean _ hes =>
        rw [readEvents_lines w hes, List.length_append]
        rcases hrest.clean with ⟨hpair, heq⟩ | ⟨hpair, hlt⟩
        · exact .inl ⟨⟨fun s' _ => spares_clean w s', hpair⟩, by rw [heq]⟩
        · exact .inr ⟨fun h => hpair h.2, by omega⟩
      | torn _ p hes hp =>
        rw [List.append_assoc, readEvents_lines w hes, List.length_append]
        rcases hrest.garbled p hp.garbled with ⟨hall, heq⟩ | ⟨hall, hlt⟩
        · refine .inl ⟨⟨fun s' hs' => (spares_torn w p hp s').mpr (hall s' hs'),
            pairwise_spares_of_nil ss hall⟩, ?_⟩
          rw [heq, records, List.flatMap_eq_nil_iff.mpr hall]
        · refine .inr ⟨fun h => hall fun s' hs' => ?_, by omega⟩
          exact (spares_torn w p hp s').mp (h.1 s' hs')
      | whole es e hes he =>
        rw [List.append_assoc, readEvents_lines es hes, List.length_append, List.length_append,
          List.length_singleton]
        rcases hrest.whole e he with ⟨hall, heq⟩ | ⟨hall, hlt⟩
        · have hnil : ∀ s' ∈ ss, s'.2 = [] := fun s' hs' =>
            (hss s' (List.mem_cons_of_mem _ hs')).written_nil (hall s' hs')
          refine .inl ⟨⟨fun s' hs' => ?_, pairwise_spares_of_nil ss hnil⟩, ?_⟩
          · exact (spares_whole es e s' (hss s' (List.mem_cons_of_mem _ hs'))).mpr (hall s' hs')
          rw [heq, records, List.flatMap_eq_nil_iff.mpr hnil, List.append_nil]
        · refine .inr ⟨fun h => hall fun s' hs' => ?_, by omega⟩
          exact (spares_whole es e s' (hss s' (List.mem_cons_of_mem _ hs'))).mp (h.1 s' hs')
    · rw [List.forall_mem_cons, hrecords, htexts]
      by_cases hne : s.1 = []
      · rw [hne, hs.written_nil hne, List.nil_append, List.length_nil, Nat.zero_add]
        simpa using hrest.garbled t ht
      rcases dirty_session ss hrest t ht.dirty s hs hne with ⟨hnil, u, hu, hread⟩ | ⟨hw, hlt⟩
      · rw [hnil, hread, List.length_nil, Nat.zero_add]
        simpa using hrest.garbled u hu
      · exact .inr ⟨fun h => hw h.1, hlt⟩
    · rw [List.forall_mem_cons, hrecords, htexts]
      by_cases hne : s.1 = []
      · rw [hne, hs.written_nil hne, List.nil_append, List.length_nil, Nat.zero_add]
        simpa using hrest.whole e he
      refine .inr ⟨fun h => hne h.1, ?_⟩
      rcases dirty_session ss hrest _ (fun p => garbled_after_record e p he) s hs hne with
        ⟨hnil, u, hu, hread⟩ | ⟨hw, hlt⟩
      · have hle := hrest.garbled_le u hu
        rw [hread]
        omega
      · omega

/-! ## Journals -/

section
variable (host : Host)

theorem isEvent_init (s : Session) : IsEvent (s.init host) :=
  ⟨isRecord_initEvent host _ _ _, _, rfl⟩

theorem isEvent_actions (sid : Text) (store : Recorded) (ds : List (Action × Text)) :
    ∀ e ∈ eventsFrom host sid store ds, IsEvent e := by
  induction ds generalizing store with
  | nil => exact fun e he => by cases he
  | cons d ds ih =>
    intro e he
    rcases List.mem_append.mp he with he | he
    · unfold newEvents at he
      split at he
      · cases he
      · split at he
        · cases he
        · next j hj =>
          obtain rfl := List.mem_singleton.mp he
          exact ⟨isRecord_actionEvent host sid _ _ j _ (plain_actionToDict d.1 j hj), _, rfl⟩
    · exact ih _ e he

/-- A session leaves whole lines, and a record that is cut off or lacks its newline. -/
theorem Session.shape (s : Session) : Shape (s.text host) (s.written host) := by
  have hevents : ∀ e ∈ s.before host ++ [s.last host], IsEvent e := by
    rw [s.split host]
    intro e he
    rcases List.mem_cons.mp he with rfl | he
    · exact isEvent_init host s
    · exact isEvent_actions host _ _ _ e he
  have hbefore : ∀ e ∈ s.before host, IsEvent e := fun e he =>
    hevents e (List.mem_append_left _ he)
  have hlast : IsEvent (s.last host) := hevents _ (List.mem_append_right _ List.mem_cons_self)
  have hline : (line (s.last host)).length = (dumps compact (s.last host)).length + 1 := by
    unfold line
    rw [List.length_append, List.length_singleton]
  unfold Session.text Session.written
  rcases Nat.lt_trichotomy s.onDisk (dumps compact (s.last host)).length with hlt | heq | hgt
  · rw [if_neg (by omega), List.append_nil]
    have htake : (line (s.last host)).take s.onDisk = (dumps compact (s.last host)).take s.onDisk :=
      List.take_append_of_le_length hlt.le
    rw [htake]
    by_cases hzero : s.onDisk = 0
    · rw [hzero, List.take_zero, List.append_nil]
      exact .clean _ hbefore
    · refine .torn _ _ hbefore ⟨?_, s.last host, (dumps compact (s.last host)).drop s.onDisk, hlast,
        ?_, (List.take_append_drop _ _).symm⟩
      · intro hnil
        have hlen := congrArg List.length hnil
        rw [List.length_take, List.length_nil] at hlen
        omega
      · intro hnil
        have hlen := congrArg List.length hnil
        rw [List.length_drop, List.length_nil] at hlen
        omega
  · rw [if_pos (by omega), heq]
    have htake : (line (s.last host)).take (dumps compact (s.last host)).length =
        dumps compact (s.last host) := List.take_left
    rw [htake]
    exact .whole _ _ hbefore hlast
  · rw [if_pos (by omega), List.take_of_length_le (by omega)]
    have htext : linesOf (s.before host) ++ line (s.last host) =
        linesOf (s.before host ++ [s.last host]) := by
      rw [linesOf_append, linesOf_singleton]
      rfl
    rw [htext]
    exact .clean _ hevents

/-- The journal after the sessions, each appending to what is there. -/
def journal (sessions : List Session) : Text := sessions.flatMap fun s => s.text host

/-- **What survives.** The complete records of all sessions, and no others, are read back exactly
where after a line that was cut off no session completes a record, and none writes anything where
that line lacks its newline only. -/
theorem journal_survives (sessions : List Session) :
    readEvents (journal host sessions) = sessions.flatMap (fun s => s.written host) ↔
      sessions.Pairwise fun s s' => s.text host ≠ linesOf (s.written host) →
        s'.written host = [] ∧
          (s.text host ++ ['\n'] = linesOf (s.written host) → s'.text host = []) := by
  have hback := readBack (sessions.map fun s => (s.text host, s.written host)) (by
    intro x hx
    obtain ⟨s, -, rfl⟩ := List.mem_map.mp hx
    exact s.shape host)
  have htexts : texts (sessions.map fun s => (s.text host, s.written host)) =
      journal host sessions := List.flatMap_map ..
  have hrecords : records (sessions.map fun s => (s.text host, s.written host)) =
      sessions.flatMap fun s => s.written host := List.flatMap_map ..
  have hclean := hback.clean
  rw [htexts, hrecords, List.pairwise_map] at hclean
  rcases hclean with ⟨hpair, heq⟩ | ⟨hpair, hlt⟩
  · exact iff_of_true heq hpair
  · exact iff_of_false (fun heq => absurd (congrArg List.length heq) (by omega)) hpair

end

def anyHost : Host := ⟨fun _ => [], ['s'], List.cons_ne_nil _ _⟩

/-- A session without dispatches. -/
def idle (onDisk : Nat) : Session := ⟨{ issues := .empty, slots := .empty }, none, [], [], onDisk⟩

/-- After a first session of which one character is on the disk, the record of a second one that
ends in peace is lost. -/
theorem torn_line_swallows : ¬ ∀ (host : Host) (sessions : List Session),
    readEvents (journal host sessions) = sessions.flatMap (fun s => s.written host) := by
  intro hclaim
  generalize he : (idle 1).init anyHost = e
  have hevent : IsEvent e := by
    rw [← he]
    exact isEvent_init anyHost (idle 1)
  obtain ⟨b, hb, -⟩ := event_text e hevent
  have hbefore : ∀ n, (idle n).before anyHost = [] := fun _ => rfl
  have hlast : ∀ n, (idle n).last anyHost = e := fun n => by
    rw [← he]
    rfl
  have htext : ∀ n, (idle n).text anyHost = (line e).take n := fun n => by
    unfold Session.text
    rw [hbefore, hlast]
    exact List.nil_append _
  have hwritten : ∀ n, (idle n).written anyHost =
      if (dumps compact e).length ≤ n then [e] else [] := fun n => by
    unfold Session.written
    rw [hbefore, hlast]
    exact List.nil_append _
  have hfirst : (line e).take 1 = ['{'] := by
    unfold line
    rw [hb]
    rfl
  have hgarbled : Garbled (['{'] ++ dumps compact e) :=
    Garbled.append ⟨by intro c hc; rw [List.mem_singleton.mp hc]; decide, [], rfl, by decide⟩
      hevent.piece
  have hlost := hgarbled.readEvents_line []
  have hread := hclaim anyHost [idle 1, idle (line e).length]
  simp only [journal, List.flatMap_cons, List.flatMap_nil, List.append_nil, htext, hwritten,
    hfirst, List.take_length] at hread
  rw [if_neg (by rw [hb]; simp), if_pos (by unfold line; simp)] at hread
  rw [List.append_assoc] at hlost
  change readEvents (['{'] ++ line e) = [] at hlost
  rw [hlost] at hread
  cases hread

end Agentrail.Afk
