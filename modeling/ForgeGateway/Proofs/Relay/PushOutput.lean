import ForgeGateway.Proofs.Git.Advertisement
import ForgeGateway.Proofs.Relay.Push

/-! # What the client of a push is shown

However the forge's output is cut into chunks, the client is shown it once and in order: first
the advertisement, and behind it, once the pack was forwarded, all the rest.  `OutputFacts` is
what holds at every moment, also after a failure, and `push_output` says so of all runs. -/

namespace ForgeGateway.Relay

open ForgeGateway.Git (Packet)

/-- The advertisement has come to its end in what the forge has written. -/
def Advertised (h : List Step) : Prop :=
  ∃ n, Packet.advertisementEnd (received h) = .ok (some n)

/-- The client was shown the advertisement, up to and with its first flush packet, and nothing
else. -/
def ShowsAdvertisement (h : List Step) : Prop :=
  ∃ n, Packet.advertisementEnd (received h) = .ok (some n) ∧ shown h = (received h).take n ∧
    offered h = shown h

/-- What holds of the client's output at every moment. -/
structure OutputFacts (h : List Step) : Prop where
  shown_prefix : shown h <+: offered h
  offered_prefix : offered h <+: received h
  /-- There is no output before the advertisement is complete. -/
  advertised : offered h ≠ [] → Advertised h
  /-- Without a pack forwarded there is nothing but the advertisement. -/
  unforwarded : Displayed h → ¬Forwarded h → ShowsAdvertisement h
  /-- If all goes well, all is shown. -/
  whole : Forwarded h → EndedCleanly h → ¬SinkFailed h → shown h = received h

section
variable {h : List Step} {st : Step} {b rest : Bytes}

theorem OutputFacts.snoc (hf : OutputFacts h) (ho : st.output? = none) (hd : st.data = [])
    (hs : st.sent? = none) (he : st.readsEnd = false) : OutputFacts (h ++ [st]) where
  shown_prefix := by simpa [ho] using hf.shown_prefix
  offered_prefix := by simpa [ho, hd] using hf.offered_prefix
  advertised := by simpa [ho, hd, Advertised] using hf.advertised
  unforwarded := by simpa [ho, hd, hs, ShowsAdvertisement] using hf.unforwarded
  whole := by
    intro hfw hend hsink
    simp only [forwarded_append, forwarded_cons, hs, endedCleanly_append, endedCleanly_cons, he,
      sinkFailed_append, not_or] at hfw hend hsink
    simpa [ho, hd] using hf.whole (by simpa using hfw) (by simpa using hend) hsink.1

theorem Advertised.snoc (ha : Advertised h) (st : Step) : Advertised (h ++ [st]) := by
  obtain ⟨n, hn⟩ := ha
  refine ⟨n, ?_⟩
  rw [received_append, Packet.advertisementEnd_append _ _ (by simp [hn]), hn]

/-- Every octet written to the client so far arrived there, they are `b`, and the forge has not
ended. -/
structure Shows (h : List Step) (b : Bytes) : Prop where
  shown_eq : shown h = b
  offered_eq : offered h = b
  unended : ¬EndedCleanly h

theorem Shows.snoc (hs : Shows h b) (ho : st.output? = none) (he : st.readsEnd = false) :
    Shows (h ++ [st]) b :=
  ⟨by simp [ho, hs.shown_eq], by simp [ho, hs.offered_eq], by simp [he, hs.unended]⟩

theorem Shows.writeOut (hs : Shows h b) (w : Bytes) (now : Time) (c : List Metrics.Measurement) :
    Shows (h ++ [⟨.writeOut w, .ok (), now, c⟩]) (b ++ w) :=
  ⟨by simp [hs.shown_eq, Step.output?, Step.ifWritten], by simp [hs.offered_eq, Step.output?],
    by simp [hs.unended, Step.readsEnd, Step.forgeRead?]⟩

end

/-! ### The three phases of a push -/

/-- The client was shown nothing and the forge was sent nothing; the forge has written `b`. -/
structure Before (h : List Step) (b : Bytes) : Prop where
  shows : Shows h []
  received_eq : received h = b
  undisplayed : ¬Displayed h
  unforwarded : ¬Forwarded h

/-- The client was shown the advertisement, out of all that the forge has written. -/
structure Introduced (h : List Step) (p : Prefetched) : Prop where
  shows : Shows h p.advertisement
  received_eq : received h = p.buffer
  ends : Packet.advertisementEnd p.buffer = .ok (some p.length)

/-- The pack is forwarded, and the client was shown all that the forge has written but `rest`. -/
structure Relayed (h : List Step) (rest : Bytes) : Prop where
  shows : ∃ b, Shows h b ∧ received h = b ++ rest
  advertised : Advertised h
  forwarded : Forwarded h

section
variable {h : List Step} {st : Step} {b rest : Bytes} {p : Prefetched}

theorem Prefetched.advertisement_prefix (p : Prefetched) : p.advertisement <+: p.buffer :=
  List.take_prefix p.length p.buffer

theorem OutputFacts.of_silent (hs : shown h = []) (ho : offered h = []) (hd : ¬Displayed h)
    (hf : ¬Forwarded h) : OutputFacts h where
  shown_prefix := by simp [hs]
  offered_prefix := by simp [ho]
  advertised hne := absurd ho hne
  unforwarded h' := absurd h' hd
  whole h' := absurd h' hf

theorem Before.snoc {b' : Bytes} (hb : Before h b) (ho : st.output? = none) (hs : st.sent? = none)
    (he : st.readsEnd = false) (hd : b ++ st.data = b') : Before (h ++ [st]) b' where
  shows := hb.shows.snoc ho he
  received_eq := by simp [hb.received_eq, hd]
  undisplayed := by simp [hb.undisplayed, ho]
  unforwarded := by simp [hb.unforwarded, hs]

theorem Before.facts (hb : Before h b) : OutputFacts h :=
  .of_silent hb.shows.shown_eq hb.shows.offered_eq hb.undisplayed hb.unforwarded

theorem Before.facts_snoc (hb : Before h b) (ho : st.output? = none) (hs : st.sent? = none) :
    OutputFacts (h ++ [st]) :=
  .of_silent (by simp [ho, hb.shows.shown_eq]) (by simp [ho, hb.shows.offered_eq])
    (by simp [hb.undisplayed, ho]) (by simp [hb.unforwarded, hs])

theorem Before.introduced {now : Time} {c : List Metrics.Measurement} (hb : Before h p.buffer)
    (hp : Packet.advertisementEnd p.buffer = .ok (some p.length)) :
    Introduced (h ++ [⟨.writeOut p.advertisement, .ok (), now, c⟩]) p where
  shows := by simpa using hb.shows.writeOut p.advertisement now c
  received_eq := by simp [hb.received_eq, Step.data, Step.forgeRead?]
  ends := hp

theorem Before.facts_unshown {now : Time} {c : List Metrics.Measurement} {e : Failure}
    (hb : Before h p.buffer) (hp : Packet.advertisementEnd p.buffer = .ok (some p.length)) :
    OutputFacts (h ++ [⟨.writeOut p.advertisement, .error e, now, c⟩]) := by
  have hr : received (h ++ [⟨.writeOut p.advertisement, .error e, now, c⟩]) = p.buffer := by
    simp [hb.received_eq, Step.data, Step.forgeRead?]
  refine ⟨?_, ?_, fun _ => ⟨p.length, hr ▸ hp⟩, ?_, ?_⟩
  · simp [hb.shows.shown_eq, Step.output?, Step.ifWritten]
  · rw [hr]
    simpa [hb.shows.offered_eq, Step.output?] using p.advertisement_prefix
  · intro hd
    simp [hb.undisplayed, Step.output?] at hd
  · intro hf
    simp [hb.unforwarded, Step.sent?] at hf

theorem Introduced.snoc (hi : Introduced h p) (ho : st.output? = none) (hd : st.data = [])
    (he : st.readsEnd = false) : Introduced (h ++ [st]) p where
  shows := hi.shows.snoc ho he
  received_eq := by simp [hi.received_eq, hd]
  ends := hi.ends

theorem Introduced.advertised (hi : Introduced h p) : Advertised h :=
  ⟨p.length, hi.received_eq ▸ hi.ends⟩

theorem Introduced.showsAdvertisement (hi : Introduced h p) : ShowsAdvertisement h := by
  refine ⟨p.length, hi.received_eq ▸ hi.ends, ?_, ?_⟩
  · rw [hi.shows.shown_eq, hi.received_eq]
    rfl
  · rw [hi.shows.offered_eq, hi.shows.shown_eq]

theorem Introduced.facts (hi : Introduced h p) : OutputFacts h where
  shown_prefix := by simp [hi.shows.shown_eq, hi.shows.offered_eq]
  offered_prefix := by
    rw [hi.shows.offered_eq, hi.received_eq]
    exact p.advertisement_prefix
  advertised _ := hi.advertised
  unforwarded _ _ := hi.showsAdvertisement
  whole _ hend := absurd hend hi.shows.unended

theorem Introduced.relayed (hi : Introduced h p) (hf : Forwarded h) :
    Relayed h (p.buffer.drop p.length) := by
  refine ⟨⟨p.advertisement, hi.shows, ?_⟩, hi.advertised, hf⟩
  rw [hi.received_eq]
  exact (List.take_append_drop p.length p.buffer).symm

theorem Introduced.skip_eq (hi : Introduced h p) : p.length - p.buffer.length = 0 :=
  Nat.sub_eq_zero_of_le (Packet.le_length_of_advertisementEnd hi.ends)

theorem Relayed.snoc {rest' : Bytes} (hr : Relayed h rest) (ho : st.output? = none)
    (he : st.readsEnd = false) (hd : rest ++ st.data = rest') : Relayed (h ++ [st]) rest' := by
  obtain ⟨⟨b, hs, hb⟩, ha, hf⟩ := hr
  exact ⟨⟨b, hs.snoc ho he, by simp [hb, ← hd]⟩, ha.snoc st, by simp [hf]⟩

theorem Relayed.writeOut {now : Time} {c : List Metrics.Measurement} (hr : Relayed h rest) :
    Relayed (h ++ [⟨.writeOut rest, .ok (), now, c⟩]) [] := by
  obtain ⟨⟨b, hs, hb⟩, ha, hf⟩ := hr
  refine ⟨⟨b ++ rest, hs.writeOut rest now c, ?_⟩, ha.snoc _, by simp [hf]⟩
  simp [hb, Step.data, Step.forgeRead?]

theorem Relayed.facts (hr : Relayed h rest) : OutputFacts h := by
  obtain ⟨⟨b, hs, hb⟩, ha, hf⟩ := hr
  refine ⟨?_, ?_, fun _ => ha, fun _ hnf => absurd hf hnf, fun _ hend => absurd hend hs.unended⟩
  · have same : shown h = offered h := by rw [hs.shown_eq, hs.offered_eq]
    exact same ▸ List.prefix_rfl
  · rw [hs.offered_eq, hb]
    exact List.prefix_append b rest

theorem Relayed.facts_unwritten {now : Time} {c : List Metrics.Measurement} {e : Failure}
    (hr : Relayed h rest) : OutputFacts (h ++ [⟨.writeOut rest, .error e, now, c⟩]) := by
  obtain ⟨⟨b, hs, hb⟩, ha, hf⟩ := hr
  refine ⟨?_, ?_, fun _ => ha.snoc _, ?_, ?_⟩
  · simp [hs.shown_eq, hs.offered_eq, Step.output?, Step.ifWritten]
  · simp [hs.offered_eq, hb, Step.output?, Step.data, Step.forgeRead?]
  · intro _ hnf
    simp [hf] at hnf
  · intro _ hend
    simp [hs.unended, Step.readsEnd, Step.forgeRead?] at hend

theorem Relayed.facts_done {now : Time} {c : List Metrics.Measurement} (hr : Relayed h []) :
    OutputFacts (h ++ [⟨.readForge, .ok none, now, c⟩]) := by
  obtain ⟨⟨b, hs, hb⟩, ha, hf⟩ := hr
  have hall : shown h = received h := by rw [hs.shown_eq, hb, List.append_nil]
  refine ⟨?_, ?_, fun _ => ha.snoc _, ?_, fun _ _ _ => ?_⟩
  · simp [hs.shown_eq, hs.offered_eq, Step.output?]
  · simp [hs.offered_eq, hb, Step.output?, Step.data, Step.forgeRead?]
  · intro _ hnf
    simp [hf] at hnf
  · simp [hall, Step.output?, Step.data, Step.forgeRead?]

end

/-- What the client of a push was shown when the push is at a stage. -/
def OutputHistory (h : List Step) : Flow → Prop
  | .dialling _ => Before h []
  | .prefetching _ (.reading b) | .prefetching _ (.passing b _) => Before h b
  | .advertising p =>
    Before h p.buffer ∧ Packet.advertisementEnd p.buffer = .ok (some p.length)
  | .capturing p _ _ | .consultingPack p _ | .forwarding p _ => Introduced h p ∧ ¬Forwarded h
  | .endingInput p => Introduced h p ∧ Forwarded h
  | .replaying rest skip | .relayingOut rest skip _ => Relayed h rest ∧ skip.remaining = 0
  | .relaying skip _ | .relayingErr _ skip _ => Relayed h [] ∧ skip.remaining = 0
  | .closing _ => OutputFacts h
  | _ => False

theorem OutputHistory.inPush {h : List Step} {f : Flow} (hf : OutputHistory h f) : f.InPush := by
  cases f <;> trivial

theorem OutputHistory.keep {job : Job} {h : List Step} {f : Flow} {st : Step} {next : Next}
    (move : PushMove job f st next) (hf : OutputHistory h f) :
    next.Holds (OutputHistory (h ++ [st])) (OutputFacts (h ++ [st])) := by
  cases move with
  | unconnected | late | unadvertised | malformed | unpassed => exact hf.facts_snoc rfl rfl
  | connected | more => exact hf.snoc rfl rfl rfl rfl
  | passing | passed => exact hf.snoc rfl rfl rfl (List.append_nil _)
  | advertised hend => exact ⟨hf.snoc rfl rfl rfl rfl, hend⟩
  | unshown => exact hf.1.facts_unshown hf.2
  | shown =>
      refine ⟨hf.1.introduced hf.2, ?_⟩
      simp [hf.1.unforwarded, Step.sent?]
  | dies => exact (hf.1.introduced hf.2).facts
  | uncaptured | overfull | miscounted | nothing | denied | unsent | unended =>
      exact (hf.1.snoc rfl rfl rfl).facts
  | takes | captured | allowed =>
      refine ⟨hf.1.snoc rfl rfl rfl, ?_⟩
      simp [hf.2, Step.sent?]
  | sent => exact ⟨hf.1.snoc rfl rfl rfl, by simp [Step.sent?]⟩
  | ended hrest =>
      refine ⟨?_, hf.1.skip_eq⟩
      have hr := hf.1.relayed hf.2
      rw [hrest] at hr
      exact hr.snoc rfl rfl rfl
  | replays =>
      exact ⟨(hf.1.relayed hf.2).snoc rfl rfl (List.append_nil _), hf.1.skip_eq⟩
  | replayed | relayedOut => exact ⟨hf.1.writeOut, hf.2⟩
  | unreplayed | unrelayedOut => exact hf.1.facts_unwritten
  | broken | unrelayedErr => exact (hf.1.snoc rfl rfl rfl).facts
  | done => exact hf.1.facts_done
  | skipped hchunk =>
      rw [hf.2, List.drop_zero] at hchunk
      exact ⟨hf.1.snoc rfl rfl hchunk, by simp [hf.2]⟩
  | data =>
      rw [hf.2, List.drop_zero]
      exact ⟨hf.1.snoc rfl rfl rfl, by simp⟩
  | stderr | exits | outputEnds | relayedErr => exact ⟨hf.1.snoc rfl rfl rfl, hf.2⟩
  | closed => exact hf.snoc rfl rfl rfl rfl

/-- In every stage the client of a push was shown what `OutputHistory` says. -/
theorem Run.outputHistory {job : Job} (push : job.exec.service = .receivePack) {now : Time}
    {steps : List Step} {s : Stage}
    (run : Run (.active (.flowing job (.dialling now))) steps s) :
    s.Holds job (OutputHistory steps) (OutputFacts steps) :=
  run.push_invariant push (fun _ _ hf => hf.inPush) (fun _ _ _ _ move hf => hf.keep move)
    (fun _ _ _ _ _ hf => hf.snoc rfl rfl rfl rfl) (fun _ _ _ _ _ hf => hf.snoc rfl rfl rfl rfl)
    ⟨⟨rfl, rfl, not_endedCleanly_nil⟩, rfl, not_displayed_nil, not_forwarded_nil⟩

/-! ### All runs of a push -/

section
variable {job : Job} {h : List Step}

theorem OutputHistory.facts {f : Flow} (hf : OutputHistory h f) : OutputFacts h := by
  cases f with
  | dialling => exact Before.facts hf
  | prefetching deadline s => cases s <;> exact Before.facts hf
  | advertising => exact hf.1.facts
  | capturing | consultingPack | forwarding | endingInput => exact hf.1.facts
  | replaying | relaying | relayingOut | relayingErr => exact hf.1.facts
  | closing => exact hf
  | consulting | piping | pipingOut | pipingErr | pipingSend | pipingEof => exact hf.elim

/-- The client is read only when it was shown the advertisement. -/
theorem Run.advertisement_before_read {a : Active}
    (hist : (Stage.active a).Holds job (OutputHistory h) (OutputFacts h))
    {st : Step} {after : List Step} {s : Stage} (run : Run (.active a) (st :: after) s)
    (reads : st.request.readsClient) : ShowsAdvertisement h := by
  rw [run.request_eq] at reads
  cases a with
  | reporting | finishing => cases reads
  | flowing job' f =>
      obtain ⟨rfl, hf⟩ := hist
      cases f with
      | capturing => exact hf.1.showsAdvertisement
      | consulting | piping | pipingOut | pipingErr | pipingSend | pipingEof => exact hf.elim
      | prefetching deadline s => cases s <;> cases reads
      | _ => cases reads

end

/-- **The output of a push.**  In every run of an accepted push: what was shown to the client is
at every moment a prefix of what the forge has written, and nothing before the advertisement is
complete.  If the pack was forwarded, the forge ended in order and no writing to the client
failed, the client was shown everything.  If the advertisement was shown and nothing forwarded,
it was shown the advertisement and nothing else.  No message is taken from the client before
it was shown the advertisement. -/
theorem push_output {context : Context} {limits : Limits} {raw : String} {now : Time}
    {exec : Git.ExecLine} {steps : List Step} {s : Stage}
    (parsed : Git.ExecLine.parse raw = .ok exec) (push : exec.service = .receivePack)
    (run : Run (.start context limits raw now) steps s) :
    (Forwarded steps → EndedCleanly steps → ¬SinkFailed steps → shown steps = received steps) ∧
    (shown steps <+: offered steps ∧ offered steps <+: received steps ∧
      (offered steps ≠ [] → Advertised steps)) ∧
    (Displayed steps → ¬Forwarded steps → ShowsAdvertisement steps) ∧
    ∀ before st after, steps = before ++ st :: after → st.request.readsClient →
      ShowsAdvertisement before := by
  rw [Stage.start_push parsed push] at run
  have facts : OutputFacts steps := (run.outputHistory push).elim (fun _ hf => hf.facts)
  refine ⟨facts.whole, ⟨facts.shown_prefix, facts.offered_prefix, facts.advertised⟩,
    facts.unforwarded, ?_⟩
  intro before st after hsteps reads
  rw [hsteps] at run
  obtain ⟨m, hbefore, hrest⟩ := run.split
  cases m with
  | active a => exact hrest.advertisement_before_read (hbefore.outputHistory push) reads
  | finished | aborted => cases hrest

theorem push_output_sample :
    ∃ steps, Run (.start sampleJob.context sampleJob.limits sampleLine 0) steps (.finished 0) ∧
      received steps = [0x30, 0x30, 0x30, 0x30, 7, 8] ∧ Forwarded steps ∧ EndedCleanly steps ∧
      ¬SinkFailed steps ∧ shown steps = received steps := by
  obtain ⟨steps, run, -, -, hr, -, hf, hc, hn⟩ := sample_run
  exact ⟨steps, run, hr, hf, hc, hn, (push_output parse_sampleLine rfl run).1 hf hc hn⟩

end ForgeGateway.Relay
