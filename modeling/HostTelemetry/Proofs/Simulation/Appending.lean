import HostTelemetry.Proofs.Simulation.Interrupt

/-!
# Appending to a file

A session that appends keeps what the file holds and puts its records behind it. It does not look at
how the file ends, so behind something that is not a whole line, such as what another session left
of a record, the first record has no line of its own.
-/

set_option autoImplicit false

namespace HostTelemetry.Session

open Sink (Fate Framed keptAll written bytesOf lineBytes pieces completed remains)

variable {γ : Type} [Producer γ] {settings : Settings} {producer : γ} {schedule : Schedule}
  {plan : Plan} {collector : Collector} {span : Span} {w : World} {limit : Option Int} {turns : Nat}

theorem opened_of_emitted
    (completes : 0 < (run collector settings producer schedule plan limit span turns w).2.emitted) :
    ∃ session r, start settings producer schedule plan span.opening w = (.goesOn, session, r) := by
  rcases opened_or_failed collector settings producer schedule plan limit span turns w with
    hopened | ⟨f, session, r, -, -, hnone⟩
  · exact hopened
  · rw [hnone] at completes
    exact absurd completes (Nat.lt_irrefl 0)

theorem lineAt_visible {k : Nat} {line : Text} (h : Producer.lineAt producer k = .ok line) :
    Text.Within 32 126 line ∧ ∃ record, ∀ room, Record.read room line = .ok record := by
  obtain ⟨record, rfl⟩ := Producer.exists_record h
  exact ⟨record.line_visible, _, fun room => Record.read_line room record⟩

/-- A session that appends and has kept a line leaves the old content as it is, and puts the records
of its samples behind it, each of which reads as one. The first continues the last piece of the old
content, so they stand on the last lines of the file exactly if that ends with a line end or is
empty. Behind the lines of a session that returns there is the empty last piece. -/
theorem run_appends
    (apart : Apart settings (start settings producer schedule plan span.opening w).2.2.world.disk)
    (appends : settings.append = true)
    (completes : 0 < (run collector settings producer schedule plan limit span turns w).2.emitted) :
    let opened := (start settings producer schedule plan span.opening w).2.2
    let e := run collector settings producer schedule plan limit span turns w
    ∃ (l : Location) (lines : List Text) (lost : Option (Text × Fate)) (file : Bytes),
      opened.world.disk.locate settings.outputPath = .ok l ∧
      opened.attempts limit turns = keptAll lines ++ lost.toList ∧
      e.2.emitted = lines.length ∧ (∀ n, e.1 = .returned n → n = lines.length ∧ lost = none) ∧
      (∀ k line, lines[k]? = some line → Producer.lineAt producer k = .ok line ∧
        Utf8.decode (lineBytes line) = .ok line ∧
        ∃ record, ∀ room, Record.read room line = .ok record) ∧
      let old := w.disk.held l
      let records := (lines ++ completed lost).map lineBytes
      e.2.world.disk.read settings.outputPath = .ok file ∧
      file = old ++ written (lines ++ completed lost) ++ remains lost ∧
      (∃ front last, pieces old = front ++ [last] ∧
        pieces file = front ++ (records ++ pieces (remains lost)).modifyHead (last ++ ·)) ∧
      ((∃ before, pieces file = before ++ records ++ pieces (remains lost)) ↔ Framed old) := by
  intro opened e
  obtain ⟨session, r, hstart⟩ := opened_of_emitted completes
  obtain rfl : opened = r := congrArg (·.2.2) hstart
  obtain ⟨l, lines, lost, hl, htried, settled, hfile, hsound, -⟩ :=
    run_ends collector limit turns hstart apart
  rw [if_pos appends] at hfile
  have hvisible : ∀ line ∈ lines ++ completed lost, Text.Within 32 126 line := by
    intro line hline
    rcases List.mem_append.1 hline with hline | hline
    · obtain ⟨k, hk⟩ := List.mem_iff_getElem?.1 hline
      exact (lineAt_visible (settled.encoded k line hk)).1
    · exact Sink.completed_visible hsound hline
  have hne : lines ++ completed lost ≠ [] := by
    intro hnil
    have hlength := settled.emitted_eq
    rw [(List.append_eq_nil_iff.1 hnil).1] at hlength
    rw [hlength] at completes
    exact absurd completes (Nat.lt_irrefl 0)
  refine ⟨l, lines, lost, _, hl, htried, settled.emitted_eq, fun n hn => ⟨settled.number n hn, ?_⟩,
    fun k line hk => ?_, hfile, rfl, ?_, Sink.pieces_written_iff hvisible hne _⟩
  · rcases hlost : lost with _ | a
    · rfl
    · obtain ⟨-, f, hf⟩ := settled.failed a hlost
      exact absurd (hn.symm.trans hf) nofun
  · have hline := settled.encoded k line hk
    obtain ⟨hwithin, hread⟩ := lineAt_visible hline
    exact ⟨hline, Sink.decode_lineBytes hwithin, hread⟩
  · obtain ⟨front, last, hold, -, happend⟩ := Sink.pieces_append (w.disk.held l)
    exact ⟨front, last, hold, by rw [List.append_assoc, happend, Sink.pieces_written hvisible]⟩

def oneLine : World := (run keeper oneFile steady .never .none (some 1) morning 1 bare).2.world

theorem run_appends_oneLine :
    let e := run keeper oneFile steady .never .none (some 1) morning 1 oneLine
    ∃ before line file, e.2.world.disk.read oneFile.outputPath = .ok file ∧
      pieces file = before ++ [lineBytes line] ++ [[]] ∧
      ∃ record, ∀ room, Record.read room line = .ok record := by
  intro e
  have hapart :
      Apart oneFile (start oneFile steady .never .none morning.opening oneLine).2.2.world.disk :=
    nofun
  have hreturned : e.1 = .returned 1 := by decide +kernel
  have hcompletes : 0 < e.2.emitted := by decide +kernel
  have hplace : (start oneFile steady .never .none morning.opening oneLine).2.2.world.disk.locate
      oneFile.outputPath = .ok (Disk.here ++ [[102]]) := by decide +kernel
  have hframed : Framed (oneLine.disk.held (Disk.here ++ [[102]])) := by decide +kernel
  obtain ⟨l, lines, lost, file, hl, -, -, hnumber, hlines, hfile, -, -, hown⟩ :=
    run_appends hapart rfl hcompletes
  obtain ⟨hone, rfl⟩ := hnumber 1 hreturned
  obtain ⟨line, rfl⟩ := List.length_eq_one_iff.1 hone.symm
  obtain rfl : Disk.here ++ [[102]] = l := Except.ok.inj (hplace.symm.trans hl)
  obtain ⟨before, hbefore⟩ := hown.2 hframed
  exact ⟨before, line, file, hfile, hbefore, (hlines 0 line rfl).2.2⟩

def tornLine : World :=
  (run keeper freshFile steady .never interruptedWrite none morning 1 bare).2.world

/-- What a session left of a record costs the next one the line of its own. -/
theorem not_run_ownLines :
    ¬∀ (collector : Collector) (settings : Settings) (g : Generator Steady AnyClock)
      (schedule : Schedule) (plan : Plan) (limit : Option Int) (span : Span) (turns : Nat)
      (w : World) (n : Nat), settings.append = true →
        (run collector settings g schedule plan limit span turns w).1 = .returned n → 0 < n →
        ∃ (before : List Bytes) (lines : List Text) (file : Bytes), lines.length = n ∧
          (∀ k line, lines[k]? = some line → Producer.lineAt g k = .ok line) ∧
          (run collector settings g schedule plan limit span turns w).2.world.disk.read
            settings.outputPath = .ok file ∧
          pieces file = before ++ lines.map lineBytes ++ [[]] := by
  intro h
  have hreturned :
      (run keeper oneFile steady .never .none (some 1) morning 1 tornLine).1 = .returned 1 := by
    decide +kernel
  have hglued : (run keeper oneFile steady .never .none (some 1) morning 1
      tornLine).2.world.disk.read oneFile.outputPath =
        .ok ([123, 34, 99] ++ written [dawnRecord.line]) := by
    decide +kernel
  obtain ⟨before, lines, file, hone, hlines, hfile, hpieces⟩ :=
    h _ _ _ _ _ _ _ _ _ _ rfl hreturned Nat.one_pos
  obtain ⟨line, rfl⟩ := List.length_eq_one_iff.1 hone
  obtain rfl : dawnRecord.line = line := Except.ok.inj (steady_made.symm.trans (hlines 0 line rfl))
  rw [hglued] at hfile
  obtain rfl := Except.ok.inj hfile
  have hvisible : ∀ line ∈ [dawnRecord.line], Text.Within 32 126 line := by
    simpa using dawnRecord.line_visible
  have hframed := (Sink.pieces_written_iff hvisible (List.cons_ne_nil _ _) []).1
    ⟨before, by rw [List.append_nil]; exact hpieces⟩
  exact absurd hframed (by decide : ¬Framed [123, 34, 99])

end HostTelemetry.Session
