import MuduoWindows.Base.AsyncLogging.Dropped
import MuduoWindows.Base.AsyncLogging.Stop
import MuduoWindows.Base.LogFile

/-! # From append to the files

The backend with the `LogFile` that it creates: each call of `output->append` gives the file a whole
buffer, so that no line is torn by a roll.
-/

namespace MuduoWindows.Base
open Library Net

namespace AsyncLogging

/-- The constant members, the id of the process, and the files that are there already. -/
structure Setup where
  basename : List UInt8
  rollSize : ℤ
  pid : ℤ
  disk : List UInt8 → List UInt8

/-- `LogFile(basename_, rollSize_, false)`, with the default arguments behind. -/
def Setup.config (p : Setup) : LogFile.Config :=
  { basename := p.basename, rollSize := p.rollSize, flushInterval := 3, checkEveryN := 1024
    pid := p.pid }

/-- What a step finds: what `fwrite` accepts, the readings of the clock, the name of the host. -/
structure Env where
  accepted : List ℕ
  first : ℤ
  second : ℤ
  hostname : List UInt8

def Env.append (v : Env) (logline : List UInt8) : LogFile.Append :=
  { logline := logline, accepted := v.accepted, first := v.first, second := v.second
    hostname := v.hostname }

/-- `output` is `logFiles_.back()`. -/
structure Files where
  logging : AsyncLogging
  output : Option LogFile

namespace Files

def create : Files := { logging := .create, output := none }

/-- A step of the logging, and the call of `output->append` in it. -/
def step (p : Setup) (s : Files) (e : Event) (v : Env) : Result Files := do
  let logging ← AsyncLogging.machine.step s.logging e
  if e = .begin then
    pure { logging := logging, output := some (.create p.config p.disk v.hostname v.first) }
  else
    match s.logging.passed e, s.output with
    | none, output => pure { logging := logging, output := output }
    | some _, none => .error (.nullPointer "output")
    | some logline, some output => do
      let output ← output.appendUnlocked p.config (v.append logline)
      pure { logging := logging, output := some output }

/-- The runs in which `fwrite` accepts in the end every byte it is given. -/
def machine (p : Setup) : Machine Files (Event × Env) Fault where
  enabled s e := AsyncLogging.machine.enabled s.logging e.1 ∧
    ∀ logline ∈ s.logging.passed e.1,
      (writeLoop logline 0 e.2.accepted).1 = logline.length
  step s e := step p s e.1 e.2

/-- The first reading of the clock is positive. -/
def Clocked (_ : Files) (e : Event × Env) : Prop := e.1 = .begin → 0 < e.2.first

def names (s : Files) : List (List UInt8) :=
  match s.output with
  | some output => output.logFilenames
  | none => []

def disk (p : Setup) (s : Files) : List UInt8 → List UInt8 :=
  match s.output with
  | some output => output.disk
  | none => p.disk

variable {p : Setup} {s t : Files} {e : Event} {v : Env}

theorem step_begin {logging : AsyncLogging}
    (h : AsyncLogging.machine.step s.logging .begin = .ok logging) :
    step p s .begin v = .ok ⟨logging, some (.create p.config p.disk v.hostname v.first)⟩ := by
  unfold step
  rw [h, ok_bind]
  rfl

theorem step_quiet {logging : AsyncLogging}
    (h : AsyncLogging.machine.step s.logging e = .ok logging) (hne : e ≠ .begin)
    (hpassed : s.logging.passed e = none) : step p s e v = .ok ⟨logging, s.output⟩ := by
  unfold step
  rw [h, ok_bind, if_neg hne, hpassed]
  rfl

theorem step_passed {logging : AsyncLogging} {logline : List UInt8} {output output' : LogFile}
    (h : AsyncLogging.machine.step s.logging e = .ok logging) (hne : e ≠ .begin)
    (hpassed : s.logging.passed e = some logline) (houtput : s.output = some output)
    (happend : output.appendUnlocked p.config (v.append logline) = .ok output') :
    step p s e v = .ok ⟨logging, some output'⟩ := by
  unfold step
  rw [h, ok_bind, if_neg hne, hpassed, houtput]
  dsimp only
  rw [happend, ok_bind]
  rfl

def Fresh (s : AsyncLogging) : Prop := s.backend = .outside ∨ s.backend = .starting

theorem fresh_step {s t : AsyncLogging} (hpool : s.Pool) (he : AsyncLogging.machine.enabled s e)
    (hne : e ≠ .begin) (ht : AsyncLogging.machine.step s e = .ok t) : Fresh t ↔ Fresh s := by
  have hleft (hs : ¬ Fresh s) (ht : ¬ Fresh t) : Fresh t ↔ Fresh s := iff_of_false ht hs
  have hswap (hb : s.backend = .locking ∨ s.backend = .waiting) (ht : s.swap = .ok t) :
      ¬ Fresh t := by
    obtain ⟨hfirst, hsecond, hbatch⟩ := hpool.ready hb
    obtain ⟨-, rfl⟩ := hpool.swapped hfirst hsecond hbatch ht
    simp [Fresh]
  cases e with
  | append logline =>
    obtain rfl := Except.ok.inj ht
    unfold Fresh
    rw [(append_frame s logline).1]
  | start =>
    obtain rfl := Except.ok.inj ht
    exact iff_of_true (.inr rfl) (.inl he)
  | begin => exact absurd rfl hne
  | test =>
    have hs : s.backend = .top := he
    refine hleft (by simp [Fresh, hs]) ?_
    obtain ⟨-, rfl⟩ | ⟨-, rfl⟩ := test_cases ht <;> simp [Fresh]
  | lock =>
    have hs : s.backend = .locking := he
    refine hleft (by simp [Fresh, hs]) ?_
    obtain ⟨-, rfl⟩ | ⟨-, ht⟩ := lock_cases ht
    · simp [Fresh]
    · exact hswap (.inl hs) ht
  | wake =>
    have hs : s.backend = .waiting := he
    exact hleft (by simp [Fresh, hs]) (hswap (.inr hs) ht)
  | check now =>
    obtain rfl := Except.ok.inj ht
    have hs : s.backend = .swapped := he
    refine hleft (by simp [Fresh, hs]) ?_
    unfold AsyncLogging.check
    split_ifs <;> simp [Fresh]
  | write =>
    obtain ⟨written, hb⟩ := he
    rw [step_write hb] at ht
    refine hleft (by simp [Fresh, hb]) ?_
    obtain ⟨_, -, rfl, -⟩ | ⟨-, -, rfl⟩ := hpool.write hb ht <;> simp [Fresh]
  | stop | join =>
    obtain rfl := Except.ok.inj ht
    exact Iff.rfl

theorem passed_fresh {s : AsyncLogging} (h : Fresh s) (he : AsyncLogging.machine.enabled s e) :
    s.passed e = none := by
  cases e with
  | check now => rcases h with h | h <;> cases h.symm.trans he
  | write =>
    obtain ⟨written, hb⟩ := he
    rcases h with h | h <;> cases h.symm.trans hb
  | append | start | begin | test | lock | wake | stop | join => rfl

/-- The files hold the pieces, one after the other. -/
def Stored (p : Setup) (s : Files) (pieces : List Piece) : Prop :=
  match s.output with
  | none => pieces = [] ∧ Fresh s.logging
  | some output => ¬ Fresh s.logging ∧ ∃ olds f cur,
      LogFile.Whole p.config p.disk (pieces.map Piece.bytes) output olds f cur

structure Inv (p : Setup) (s : Files) : Prop where
  pool : s.logging.Pool
  started : s.logging.Started
  stored : ∃ pieces, s.Stored p pieces ∧ ∃ past waiting lost pending current,
    s.logging.Accounted pieces past waiting lost pending current

theorem create_inv : create.Inv p :=
  ⟨create_pool, nofun, [], ⟨rfl, .inl rfl⟩, [], [], [], [], [], create_accounted⟩

theorem Inv.step (h : s.Inv p) (he : (machine p).enabled s (e, v)) (hclock : Clocked s (e, v)) :
    ∃ t, (machine p).step s (e, v) = .ok t ∧ t.Inv p ∧
      AsyncLogging.machine.step s.logging e = .ok t.logging := by
  obtain ⟨hpool, hstarted, pieces, hstored, past, waiting, lost, pending, current, haccount⟩ := h
  obtain ⟨he, haccepted⟩ := he
  obtain ⟨logging, hlogging⟩ := hpool.steps hstarted (anyLines_enabled he)
  have hpool' := hpool.step (anyLines_enabled he) hlogging
  have hstarted' := hstarted.step hpool (anyLines_enabled he) hlogging
  obtain ⟨piece, hpiece, haccount'⟩ := haccount.step hpool he hlogging
  by_cases hbegin : e = .begin
  · subst hbegin
    have hfresh : Fresh s.logging := .inr he
    have hpieces : pieces = [] := by
      cases houtput : s.output with
      | none =>
        rw [Stored, houtput] at hstored
        exact hstored.1
      | some output =>
        rw [Stored, houtput] at hstored
        exact absurd hfresh hstored.1
    obtain rfl : piece = none := Option.map_eq_none_iff.mp hpiece
    refine ⟨_, step_begin hlogging, ⟨hpool', hstarted', [], ?_, ?_⟩, hlogging⟩
    · have hleft : ¬ Fresh logging := by
        obtain ⟨-, rfl⟩ := begin_eq hlogging
        simp [Fresh]
      obtain ⟨f, hf⟩ : ∃ f, LogFile.Whole p.config p.disk []
          (LogFile.create p.config p.disk v.hostname v.first) [] f [] :=
        LogFile.whole_create (hclock rfl)
      exact ⟨hleft, [], f, [], hf⟩
    · rw [hpieces] at haccount'
      exact haccount'
  · have hfresh := fresh_step hpool he hbegin hlogging
    cases hpassed : s.logging.passed e with
    | none =>
      rw [hpassed, Option.map_eq_none_iff] at hpiece
      subst hpiece
      refine ⟨_, step_quiet hlogging hbegin hpassed, ⟨hpool', hstarted', pieces, ?_, ?_⟩, hlogging⟩
      · unfold Stored at hstored ⊢
        dsimp only
        rwa [hfresh]
      · simpa using haccount'
    | some logline =>
      cases houtput : s.output with
      | none =>
        rw [Stored, houtput] at hstored
        rw [passed_fresh hstored.2 he] at hpassed
        cases hpassed
      | some output =>
        rw [Stored, houtput] at hstored
        obtain ⟨hleft, olds, f, cur, hwhole⟩ := hstored
        obtain ⟨output', houtput', hwhole'⟩ :=
          hwhole.step (e := v.append logline) (haccepted logline hpassed)
        rw [hpassed, Option.map_eq_some_iff] at hpiece
        obtain ⟨piece, rfl, hbytes⟩ := hpiece
        refine ⟨_, step_passed hlogging hbegin hpassed houtput houtput',
          ⟨hpool', hstarted', pieces ++ [piece], ⟨fun h => hleft (hfresh.mp h), ?_⟩, haccount'⟩,
          hlogging⟩
        rw [List.map_append, List.map_singleton, hbytes]
        exact hwhole'

theorem run_inv {es : List (Event × Env)} (h : (machine p).Run Clocked create es s) : s.Inv p := by
  refine h.invariant (Inv p) create_inv fun s e t hs he hclock ht => ?_
  obtain ⟨t', ht', hinv, -⟩ := hs.step he hclock
  obtain rfl := Except.ok.inj (ht'.symm.trans ht)
  exact hinv

theorem exists_parts {α β γ : Type*} (f : α → β) (parts : List (γ × List β)) (l : List α)
    (h : (parts.map Prod.snd).flatten = l.map f) :
    ∃ parts' : List (γ × List α), parts'.flatMap Prod.snd = l ∧
      parts'.map (Prod.map id (List.map f)) = parts := by
  induction parts generalizing l with
  | nil => exact ⟨[], (List.map_eq_nil_iff.mp h.symm).symm, rfl⟩
  | cons q parts ih =>
    obtain ⟨front, rest, rfl, hfront, hrest⟩ := List.map_eq_append_iff.mp h.symm
    obtain ⟨parts', rfl, hmap⟩ := ih rest hrest.symm
    refine ⟨(q.1, front) :: parts', rfl, ?_⟩
    rw [List.map_cons, hmap]
    exact congrArg (· :: parts) (Prod.ext rfl hfront)

/-- The files by their names, each with its pieces: the lines in them are those of the written
buffers, and the messages in them count the dropped ones. -/
structure Archive (p : Setup) (s : Files) (history : History)
    (parts : List (List UInt8 × List Piece)) : Prop where
  names : parts.map Prod.fst = s.names
  nodup : s.names.Nodup
  contents : ∀ q ∈ parts, s.disk p q.1 = p.disk q.1 ++ q.2.flatMap Piece.bytes
  lines : (parts.flatMap Prod.snd).flatMap Piece.lines = history.linesOf .written
  messages : ((parts.flatMap Prod.snd).map Piece.dropped).sum = history.count .dropped

theorem Stored.exists_parts {pieces : List Piece} (h : s.Stored p pieces) :
    ∃ parts : List (List UInt8 × List Piece), parts.flatMap Prod.snd = pieces ∧
      parts.map Prod.fst = s.names ∧ s.names.Nodup ∧
      ∀ q ∈ parts, s.disk p q.1 = p.disk q.1 ++ q.2.flatMap Piece.bytes := by
  cases houtput : s.output with
  | none =>
    rw [Stored, houtput] at h
    rw [h.1, names, houtput]
    exact ⟨[], rfl, rfl, List.nodup_nil, nofun⟩
  | some output =>
    rw [Stored, houtput] at h
    obtain ⟨-, olds, f, cur, hwhole⟩ := h
    have hlines : ((olds ++ [(f.filename, cur)]).map Prod.snd).flatten =
        pieces.map Piece.bytes := by
      rw [List.map_append, List.flatten_append, ← hwhole.lines_eq]
      exact congrArg _ (List.append_nil _)
    obtain ⟨parts, hparts, hmap⟩ := Files.exists_parts Piece.bytes _ _ hlines
    have hbytes : ∀ q ∈ parts, output.disk q.1 = p.disk q.1 ++ q.2.flatMap Piece.bytes := by
      intro q hq
      have hmem : Prod.map id (List.map Piece.bytes) q ∈ olds ++ [(f.filename, cur)] :=
        hmap ▸ List.mem_map_of_mem hq
      rcases List.mem_append.mp hmem with hold | hcur
      · exact hwhole.complete _ hold
      · have heq := List.mem_singleton.mp hcur
        have hname : q.1 = f.filename := congrArg Prod.fst heq
        have hcur : q.2.map Piece.bytes = cur := congrArg Prod.snd heq
        rw [hname, hwhole.current, ← hcur]
        rfl
    refine ⟨parts, hparts, ?_, ?_, ?_⟩
    · rw [names, houtput]
      dsimp only
      rw [hwhole.names]
      have hfst := congrArg (List.map Prod.fst) hmap
      rw [List.map_map, List.map_append] at hfst
      exact hfst
    · rw [names, houtput]
      exact hwhole.nodup
    · rw [disk, houtput]
      exact hbytes

theorem writeLoop_single (logline : List UInt8) :
    (writeLoop logline 0 [logline.length]).1 = logline.length := by
  simp only [writeLoop]
  split_ifs with hempty
  · exact hempty
  · simp

theorem exists_run (p : Setup) {Q : AsyncLogging → Event → Prop} {es : List Event}
    {u : AsyncLogging} (h : AsyncLogging.machine.Run Q .create es u) :
    ∃ es' t, (machine p).Run (fun s e => Clocked s e ∧ Q s.logging e.1) create es' t ∧
      es'.map Prod.fst = es ∧ t.logging = u ∧ t.Inv p := by
  induction h with
  | nil => exact ⟨[], create, .nil, rfl, rfl, create_inv⟩
  | @snoc es u u' e _ he hq hu ih =>
    obtain ⟨es', t, ht, hes, rfl, hinv⟩ := ih
    let v : Env :=
      { accepted := [((t.logging.passed e).getD []).length], first := 1, second := 1
        hostname := [] }
    have haccepted : ∀ logline ∈ t.logging.passed e,
        (writeLoop logline 0 v.accepted).1 = logline.length := by
      intro logline hlogline
      have hv : v.accepted = [logline.length] := by
        simp only [v, Option.mem_def.mp hlogline, Option.getD_some]
      rw [hv, writeLoop_single]
    have hclock : Clocked t (e, v) := fun _ => one_pos
    obtain ⟨t', ht', hinv', hlogging⟩ := hinv.step ⟨he, haccepted⟩ hclock
    obtain rfl := Except.ok.inj (hlogging.symm.trans hu)
    refine ⟨es' ++ [(e, v)], t', .snoc ht ⟨he, haccepted⟩ ⟨hclock, hq⟩ ht', ?_, rfl, hinv'⟩
    rw [List.map_append, hes]
    rfl

def fresh : Setup :=
  { basename := [108, 111, 103], rollSize := 500, pid := 42, disk := fun _ => [] }

/-- The lines before `stop` have left the front end, or will. -/
def Ahead (s : AsyncLogging) : Prop :=
  ∀ lines ∈ s.beforeStop, lines.flatten <+: s.appended.flatten ∧
    (s.Committed ∨ lines.flatten.length + s.pendingBytes.length ≤ s.appended.flatten.length)

theorem create_ahead : Ahead .create :=
  fun lines hlines => absurd hlines (Option.not_mem_none lines)

theorem Ahead.same {s t : AsyncLogging} (h : Ahead s) (hcommitted : s.Committed → t.Committed)
    (hstop : t.beforeStop = s.beforeStop) (happended : t.appended = s.appended)
    (hpending : t.pendingBytes = s.pendingBytes) : Ahead t := by
  unfold Ahead
  rw [hstop, happended, hpending]
  exact fun lines hlines => (h lines hlines).imp_right fun hc => hc.imp_left hcommitted

theorem Ahead.append {s : AsyncLogging} (h : Ahead s) (hpool : s.Pool) {logline : Line}
    (hlen : logline.length < kLargeBuffer) : Ahead (s.append logline) := by
  have hgrown : (s.append logline).appended = s.appended ++ [logline] ∧
      (s.append logline).pendingBytes = s.pendingBytes ++ logline ∧
      (s.append logline).beforeStop = s.beforeStop ∧
      (s.append logline).backend = s.backend := by
    rcases AsyncLogging.append_cases hpool.next hlen with ⟨b, hb, heq⟩ | ⟨b, hb, heq⟩ <;>
    · rw [heq]
      simp [pendingBytes, hb]
  obtain ⟨happended, hpending, hstop, hbackend⟩ := hgrown
  intro lines hlines
  rw [hstop] at hlines
  obtain ⟨hfront, hcase⟩ := h lines hlines
  unfold Committed at hcase ⊢
  rw [happended, hpending, hbackend, List.flatten_append, List.flatten_singleton,
    List.length_append, List.length_append]
  exact ⟨hfront.trans (List.prefix_append _ _), hcase.imp_right fun hle => by omega⟩

theorem Ahead.swap {s t : AsyncLogging} (h : Ahead s) (hpool : s.Pool) (hc : s.Committed)
    (ht : s.swap = .ok t) : Ahead t := by
  obtain ⟨hfirst, hsecond, hbatch⟩ := hpool.ready hc
  obtain ⟨-, rfl⟩ := hpool.swapped hfirst hsecond hbatch ht
  intro lines hlines
  obtain ⟨hfront, -⟩ := h lines hlines
  exact ⟨hfront, .inr hfront.length_le⟩

theorem Ahead.step {s t : AsyncLogging} (h : Ahead s) (hpool : s.Pool)
    (he : AsyncLogging.machine.enabled s e) (hcaught : Caught s e)
    (ht : AsyncLogging.machine.step s e = .ok t) : Ahead t := by
  cases e with
  | append logline =>
    obtain rfl := Except.ok.inj ht
    exact h.append hpool he
  | start =>
    obtain rfl := Except.ok.inj ht
    have hs : s.backend = .outside := he
    exact h.same (by simp [Committed, hs]) rfl rfl rfl
  | begin =>
    obtain ⟨-, rfl⟩ := begin_eq ht
    have hs : s.backend = .starting := he
    exact h.same (by simp [Committed, hs]) rfl rfl rfl
  | test =>
    have hs : s.backend = .top := he
    obtain ⟨-, rfl⟩ | ⟨-, rfl⟩ := test_cases ht <;>
      exact h.same (by simp [Committed, hs]) rfl rfl rfl
  | lock =>
    obtain ⟨-, rfl⟩ | ⟨-, ht⟩ := lock_cases ht
    · exact h.same (fun _ => .inr rfl) rfl rfl rfl
    · exact h.swap hpool (.inl he) ht
  | wake => exact h.swap hpool (.inr he) ht
  | check now =>
    obtain rfl := Except.ok.inj ht
    have hs : s.backend = .swapped := he
    unfold AsyncLogging.check
    split_ifs <;> exact h.same (by simp [Committed, hs]) rfl rfl rfl
  | write =>
    obtain ⟨written, hb⟩ := he
    rw [step_write hb] at ht
    obtain ⟨_, -, rfl, -⟩ | ⟨-, -, rfl⟩ := hpool.write hb ht <;>
      exact h.same (by simp [Committed, hb]) rfl rfl rfl
  | stop =>
    obtain rfl := Except.ok.inj ht
    intro lines hlines
    obtain rfl := Option.some.inj hlines
    refine ⟨List.prefix_rfl, (hcaught rfl).imp_right fun hempty => ?_⟩
    change _ + s.pendingBytes.length ≤ _
    rw [hempty]
    exact le_rfl
  | join =>
    obtain rfl := Except.ok.inj ht
    exact h.same (fun hc => hc) rfl rfl rfl

/-- The clock is positive, and `stop` comes when the backend will still empty the buffers. -/
def ClockedCaught (s : Files) (e : Event × Env) : Prop := Clocked s e ∧ Caught s.logging e.1

theorem run_ahead {es : List (Event × Env)} (h : (machine p).Run ClockedCaught create es s) :
    s.Inv p ∧ Ahead s.logging := by
  refine h.invariant (fun s => s.Inv p ∧ Ahead s.logging) ⟨create_inv, create_ahead⟩
    fun s e t hs he hq ht => ?_
  obtain ⟨t', ht', hinv, hlogging⟩ := hs.1.step he hq.1
  obtain rfl := Except.ok.inj (ht'.symm.trans ht)
  exact ⟨hinv, hs.2.step hs.1.pool he.1 hq.2 hlogging⟩

/-- When the backend has finished, which `stop` waits for, the lines appended before `stop` are in
the files in their order but for the buffers that the messages count; where there is no message, all
of them are. -/
theorem stop_leaves_files_complete {es : List (Event × Env)}
    (h : (machine p).Run ClockedCaught create es s) (hfinished : s.logging.backend = .finished) :
    ∃ (history : History) (parts : List (List UInt8 × List Piece)),
      history.Settled ∧ history.lines <+: s.logging.appended ∧ s.Archive p history parts ∧
      (∀ lines ∈ s.logging.beforeStop, lines.flatten <+: history.lines.flatten) ∧
      ((∀ piece ∈ parts.flatMap Prod.snd, piece.dropped = 0) →
        (parts.flatMap Prod.snd).flatMap Piece.lines = history.lines) := by
  obtain ⟨hinv, hahead⟩ := run_ahead h
  obtain ⟨pieces, hstored, past, waiting, lost, pending, current, h⟩ := hinv.stored
  obtain ⟨parts, hparts, hnames, hnodup, hcontents⟩ := hstored.exists_parts
  have hwriting : ∀ n, s.logging.backend ≠ .writing n := by
    rw [hfinished]
    nofun
  have hlost := h.uncut hwriting
  have hwaiting : waiting = [] := by
    have hbatch := h.batch
    have hspare := hinv.pool.spare
    unfold Spare at hspare
    rw [hfinished] at hspare
    rw [unwritten_eq hwriting, hspare] at hbatch
    exact List.map_eq_nil_iff.mp hbatch.symm
  have happended := h.appended
  have hmessages := h.messages
  rw [hlost, hwaiting, List.flatten_nil, List.append_nil, List.append_nil,
    List.append_assoc] at happended
  rw [hlost, List.length_nil, add_zero] at hmessages
  have hfront : past.lines <+: s.logging.appended := by
    rw [happended]
    exact List.prefix_append _ _
  have hlines : (parts.flatMap Prod.snd).flatMap Piece.lines = past.linesOf .written := by
    rw [hparts, h.written]
  refine ⟨past, parts, h.settled, hfront, ⟨hnames, hnodup, hcontents, hlines, ?_⟩, ?_, ?_⟩
  · rw [hparts, hmessages]
  · intro lines hbefore
    obtain ⟨hfirst, hcase⟩ := hahead lines hbefore
    have hle := hcase.resolve_left (by simp [Committed, hfinished])
    have hpending : s.logging.pendingBytes = (pending.flatten ++ current).flatten := by
      rw [pendingBytes, h.buffers, h.currentBuffer]
      simp [List.flatten_flatten]
    have hsplit : s.logging.appended.flatten =
        past.lines.flatten ++ (pending.flatten ++ current).flatten := by
      rw [happended, List.flatten_append]
    rw [hsplit] at hfirst hle
    rw [hpending, List.length_append] at hle
    exact List.prefix_of_prefix_length_le hfirst (List.prefix_append _ _) (by omega)
  · intro hquiet
    have hsum : (pieces.map Piece.dropped).sum = 0 := by
      refine List.sum_eq_zero fun n hn => ?_
      obtain ⟨piece, hpiece, rfl⟩ := List.mem_map.mp hn
      exact hquiet piece (hparts ▸ hpiece)
    rw [hlines, h.settled.linesOf_written (hmessages ▸ hsum)]

/-- `stop` is called while the backend waits. -/
theorem stop_leaves_files_complete_waiting : ∃ es s,
    (machine fresh).Run ClockedCaught create es s ∧ s.logging.backend = .finished ∧
    s.logging.beforeStop = some [[97, 10]] ∧
    ∃ (history : History) (parts : List (List UInt8 × List Piece)),
      history.Settled ∧ history.lines <+: s.logging.appended ∧ s.Archive fresh history parts ∧
      (∀ lines ∈ s.logging.beforeStop, lines.flatten <+: history.lines.flatten) ∧
      ((∀ piece ∈ parts.flatMap Prod.snd, piece.dropped = 0) →
        (parts.flatMap Prod.snd).flatMap Piece.lines = history.lines) := by
  obtain ⟨u, hu, hp⟩ := Machine.exists_run_of_exec AsyncLogging.machine Caught .create
    [.start, .begin, .test, .lock, .append [97, 10], .stop, .wake, .check "", .write, .write,
      .test]
    (fun s => decide (s.backend = .finished ∧ s.beforeStop = some [[97, 10]])) (by decide)
  obtain ⟨es, s, hs, -, rfl, -⟩ := exists_run _ hu
  obtain ⟨hfinished, hbefore⟩ := of_decide_eq_true hp
  exact ⟨es, s, hs, hfinished, hbefore, stop_leaves_files_complete hs hfinished⟩

end Files
end AsyncLogging
end MuduoWindows.Base
