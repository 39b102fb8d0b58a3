import LibEzmb.BusSend

/-! Which devices get the messages of which: subscriptions match by prefix, so the topics of two
uids meet when one uid goes on like a topic of the other, or when the topic buffer cuts off what
tells them apart. -/

open CBytes

namespace LibEzmb

/-- What follows the uid in a topic. -/
def topicSuffixes : List CStr := [southSuffix, northSuffix]

/-- The longest uid whose topics are not cut off. -/
def uidRoom : Nat := 115

/-- Nothing sent by a device with uid `v` gets to a device with uid `u`. -/
def Isolated (u v : CStr) : Prop :=
  ∀ d e : EDevice, d.Created → e.Created → d.uid = u → e.uid = v → ∀ calls,
    ∀ m ∈ (eCommonSends e calls ⟨[]⟩).2.2, matchesSub d.southSub m = false

/-- Followed by the byte that begins both suffixes, `v` begins with what the buffer holds of a topic
of `u`; or no byte of the buffer is left and `u` begins so with what it holds of a topic of `v`. -/
def Collides (u v : CStr) : Prop :=
  ∃ s ∈ topicSuffixes,
    (u.bytes ++ s.bytes).take (topicSize - 1) <+: v.bytes ++ ascii ['_'] ∨
    (uidRoom < u.bytes.length ∧ uidRoom ≤ v.bytes.length ∧
      (v.bytes ++ s.bytes).take (topicSize - 1) <+: u.bytes ++ ascii ['_'])

theorem EDeviceType.subSuffix_mem (type : EDeviceType) : type.subSuffix ∈ topicSuffixes := by
  cases type <;> simp [subSuffix, topicSuffixes]

theorem EDeviceType.sendSuffix_mem (type : EDeviceType) : type.sendSuffix ∈ topicSuffixes := by
  cases type <;> simp [sendSuffix, topicSuffixes]

/-- A created device subscribes to the one topic that its uid and type give, and sends under the
other one. -/
theorem EDevice.Created.topics {d : EDevice} (hcreated : d.Created) :
    d.southSub = [formatTopic d.uid d.type.subSuffix] ∧
      d.sendTopic = formatTopic d.uid d.type.sendSuffix := by
  obtain ⟨env, uid, southUrl, northUrl, cb, type, hcreate⟩ := hcreated
  obtain ⟨-, htype, -, hsub, htopic, hsend⟩ := eCommonCreate_spec hcreate
  rw [htype, ← htopic]
  exact ⟨hsub, hsend⟩

theorem exists_subscriber (u : CStr) {s : CStr} (hs : s ∈ topicSuffixes) :
    ∃ d : EDevice, d.Created ∧ d.uid = u ∧ d.southSub = [formatTopic u s] := by
  simp only [topicSuffixes, List.mem_cons, List.not_mem_nil, or_false] at hs
  rcases hs with rfl | rfl
  · exact ⟨_, freshDevice_created u .collector none, rfl, rfl⟩
  · exact ⟨_, freshDevice_created u .monitor none, rfl, rfl⟩

theorem exists_sender (v : CStr) {t : CStr} (ht : t ∈ topicSuffixes) :
    ∃ e : EDevice, e.Created ∧ e.uid = v ∧ e.sendTopic = formatTopic v t := by
  simp only [topicSuffixes, List.mem_cons, List.not_mem_nil, or_false] at ht
  rcases ht with rfl | rfl
  · exact ⟨_, freshDevice_created v .monitor none, rfl, rfl⟩
  · exact ⟨_, freshDevice_created v .collector none, rfl, rfl⟩

theorem matchesSub_singleton (sub topic : CStr) {m : Msg} (hhead : m.head? = some topic.bytes) :
    matchesSub [sub] m = true ↔ sub.bytes <+: topic.bytes := by
  cases m with
  | nil => cases hhead
  | cons f m =>
      have hf : f = topic.bytes := Option.some.inj hhead
      simp [matchesSub, topicStartsWith, hf]

/-- Two uids are isolated exactly when no topic of the one begins a topic of the other. -/
theorem isolated_iff_topics (u v : CStr) :
    Isolated u v ↔ ∀ s ∈ topicSuffixes, ∀ t ∈ topicSuffixes,
      ¬(formatTopic u s).bytes <+: (formatTopic v t).bytes := by
  constructor
  · intro hisolated s hs t ht hpre
    obtain ⟨d, hd, hdu, hsub⟩ := exists_subscriber u hs
    obtain ⟨e, he, hev, hsend⟩ := exists_sender v ht
    have hmem : [e.sendTopic.bytes, [0]] ∈ (eCommonSends e [⟨some [0], true, true⟩] ⟨[]⟩).2.2 := by
      simp [eCommonSends, eCommonSend_some]
    have hnot := hisolated d e hd he hdu hev _ _ hmem
    have hmatch := (matchesSub_singleton (formatTopic u s) (formatTopic v t)
      (m := [e.sendTopic.bytes, [0]]) (by rw [hsend]; rfl)).mpr hpre
    rw [hsub, hmatch] at hnot
    cases hnot
  · rintro hnone d e hd he rfl rfl calls m hm
    have hhead := eCommonSends_head e calls ⟨[]⟩ (fun f hf => by cases hf) m hm
    obtain ⟨hsub, -⟩ := hd.topics
    obtain ⟨-, hsend⟩ := he.topics
    rw [hsend] at hhead
    rw [hsub, Bool.eq_false_iff]
    intro hmatch
    exact hnone _ d.type.subSuffix_mem _ e.type.sendSuffix_mem
      ((matchesSub_singleton _ _ hhead).mp hmatch)

/-! ### When topics meet -/

theorem topicSuffixes_length : ∀ s ∈ topicSuffixes, s.bytes.length = 12 := by decide

theorem topicSuffixes_take_one : ∀ s ∈ topicSuffixes, s.bytes.take 1 = ascii ['_'] := by decide

/-- The first two bytes of a suffix do not occur inside a suffix. -/
theorem topicSuffixes_onlyLeads {s t : CStr} (hs : s ∈ topicSuffixes) (ht : t ∈ topicSuffixes) :
    OnlyLeads (s.bytes.take 2) t.bytes := by
  have hall : ∀ s ∈ topicSuffixes, ∀ t ∈ topicSuffixes, s.bytes.take 2 ≠ [] ∧
      ∀ i < t.bytes.length, 0 < i → ¬s.bytes.take 2 <+: t.bytes.drop i := by decide
  obtain ⟨hne, hlt⟩ := hall s hs t ht
  exact onlyLeads_of_lt hne hlt

theorem formatTopic_bytes (uid suffix : CStr) :
    (formatTopic uid suffix).bytes = (uid.bytes ++ suffix.bytes).take (topicSize - 1) := rfl

theorem formatTopic_prefix_whole (uid suffix : CStr) :
    (formatTopic uid suffix).bytes <+: uid.bytes ++ suffix.bytes := List.take_prefix _ _

theorem formatTopic_length (uid : CStr) {suffix : CStr} (hsuffix : suffix ∈ topicSuffixes) :
    (formatTopic uid suffix).bytes.length = min 127 (uid.bytes.length + 12) := by
  rw [formatTopic_bytes, List.length_take, List.length_append, topicSuffixes_length _ hsuffix]
  rfl

theorem formatTopic_length_le (uid suffix : CStr) : (formatTopic uid suffix).bytes.length ≤ 127 :=
  List.length_take_le _ _

theorem underscore_leads (uid : CStr) {suffix : CStr} (hsuffix : suffix ∈ topicSuffixes) :
    uid.bytes ++ ascii ['_'] <+: uid.bytes ++ suffix.bytes := by
  rw [← topicSuffixes_take_one _ hsuffix, List.prefix_append_right_inj]
  exact List.take_prefix _ _

/-- A string that fits the buffer and begins a uid with its suffix begins the topic. -/
theorem prefix_formatTopic {x : Bytes} {uid suffix : CStr} (hlen : x.length ≤ 127)
    (hpre : x <+: uid.bytes ++ suffix.bytes) : x <+: (formatTopic uid suffix).bytes := by
  rw [formatTopic_bytes, List.prefix_take_iff]
  exact ⟨hpre, hlen⟩

/-- A prefix of a uid with its suffix stops at the suffix's first byte, or holds its second one. -/
theorem prefix_topic_cases {x : Bytes} (uid : CStr) {suffix : CStr} (hsuffix : suffix ∈ topicSuffixes)
    (hpre : x <+: uid.bytes ++ suffix.bytes) :
    x <+: uid.bytes ++ ascii ['_'] ∨ uid.bytes ++ suffix.bytes.take 2 <+: x := by
  rw [← topicSuffixes_take_one _ hsuffix]
  exact prefix_append_cases 1 hpre

theorem collides_of_topics {u v s t : CStr} (hne : u ≠ v) (hs : s ∈ topicSuffixes)
    (ht : t ∈ topicSuffixes) (hpre : (formatTopic u s).bytes <+: (formatTopic v t).bytes) :
    Collides u v := by
  rcases prefix_topic_cases v ht (hpre.trans (formatTopic_prefix_whole v t)) with hstop | hinside
  · exact ⟨s, hs, Or.inl hstop⟩
  · by_cases hle : u.bytes.length ≤ v.bytes.length
    · exact absurd (CStr.ext (eq_of_append_prefix_append hle (topicSuffixes_onlyLeads ht hs)
        (hinside.trans (formatTopic_prefix_whole u s)))) hne
    · -- the shorter uid's topic is as long as the buffer, so both are
      have hlen := hpre.length_le
      rw [formatTopic_length u hs, formatTopic_length v ht] at hlen
      have heq : (formatTopic u s).bytes = (formatTopic v t).bytes := by
        apply hpre.eq_of_length_le
        rw [formatTopic_length u hs, formatTopic_length v ht]
        omega
      have hback := formatTopic_prefix_whole u s
      rw [heq] at hback
      rcases prefix_topic_cases u hs hback with hstop | hinside'
      · exact ⟨t, ht, Or.inr ⟨by unfold uidRoom; omega, by unfold uidRoom; omega, hstop⟩⟩
      · have hge : v.bytes.length ≤ u.bytes.length := by omega
        exact absurd (CStr.ext (eq_of_append_prefix_append hge (topicSuffixes_onlyLeads hs ht)
          (hinside'.trans (formatTopic_prefix_whole v t)))).symm hne

theorem topics_of_collides {u v : CStr} (hcollides : Collides u v) :
    ∃ s ∈ topicSuffixes, ∃ t ∈ topicSuffixes,
      (formatTopic u s).bytes <+: (formatTopic v t).bytes := by
  obtain ⟨s, hs, hstop | ⟨hu, hv, hstop⟩⟩ := hcollides
  · exact ⟨s, hs, s, hs, prefix_formatTopic (formatTopic_length_le u s)
      (hstop.trans (underscore_leads v hs))⟩
  · have hpre : (formatTopic v s).bytes <+: (formatTopic u s).bytes :=
      prefix_formatTopic (formatTopic_length_le v s) (hstop.trans (underscore_leads u hs))
    have heq : (formatTopic v s).bytes = (formatTopic u s).bytes := by
      apply hpre.eq_of_length_le
      rw [formatTopic_length u hs, formatTopic_length v hs]
      unfold uidRoom at hu hv
      omega
    exact ⟨s, hs, s, hs, heq ▸ List.prefix_refl _⟩

/-- **Isolation.** Two different uids are isolated exactly when they do not collide. -/
theorem isolated_iff (u v : CStr) (hne : u ≠ v) : Isolated u v ↔ ¬Collides u v := by
  rw [isolated_iff_topics]
  constructor
  · intro hnone hcollides
    obtain ⟨s, hs, t, ht, hpre⟩ := topics_of_collides hcollides
    exact hnone s hs t ht hpre
  · intro hapart s hs t ht hpre
    exact hapart (collides_of_topics hne hs ht hpre)

theorem isolated_iff_two :
    Isolated ⟨ascii ['a'], by decide⟩ ⟨ascii ['b'], by decide⟩ ↔
      ¬Collides ⟨ascii ['a'], by decide⟩ ⟨ascii ['b'], by decide⟩ :=
  isolated_iff _ _ (by decide)

/-- The monitor of `p` gets what the collector of `p_north_topic` sends. -/
theorem isolation_counterexample :
    ∃ u v : CStr, u ≠ v ∧ ∃ d e : EDevice, d.Created ∧ e.Created ∧ d.uid = u ∧ e.uid = v ∧
      ∃ m ∈ (eCommonSends e [⟨some (ascii ['x']), true, true⟩] ⟨[]⟩).2.2,
        matchesSub d.southSub m = true :=
  ⟨⟨ascii ['p'], by decide⟩, CStr.append ⟨ascii ['p'], by decide⟩ northSuffix, by decide,
    freshDevice _ .monitor none, freshDevice _ .collector none, freshDevice_created _ _ _,
    freshDevice_created _ _ _, rfl, rfl, _, List.mem_singleton_self _, by decide⟩

/-! ### Two directions under one uid -/

/-- The longest uid that leaves room for the byte in which the two suffixes differ. -/
def directionRoom : Nat := 125

/-- What is sent under a uid gets to the devices of the other type and to none of the sender's own,
and neither topic begins the other. -/
structure Separated (uid : CStr) : Prop where
  reaches : ∀ d e : EDevice, d.Created → e.Created → d.uid = uid → e.uid = uid →
    d.type ≠ e.type → ∀ calls, ∀ m ∈ (eCommonSends e calls ⟨[]⟩).2.2,
      matchesSub d.southSub m = true
  noEcho : ∀ d e : EDevice, d.Created → e.Created → d.uid = uid → e.uid = uid →
    d.type = e.type → ∀ calls, ∀ m ∈ (eCommonSends e calls ⟨[]⟩).2.2,
      matchesSub d.southSub m = false
  apart : ∀ d : EDevice, d.Created → d.uid = uid →
    ¬d.southTopic.bytes <+: d.northTopic.bytes ∧ ¬d.northTopic.bytes <+: d.southTopic.bytes

theorem EDeviceType.subSuffix_of_ne {type type' : EDeviceType} (hne : type ≠ type') :
    type.subSuffix = type'.sendSuffix := by
  cases type <;> cases type' <;> first | rfl | exact absurd rfl hne

theorem EDeviceType.subSuffix_ne_sendSuffix (type : EDeviceType) :
    type.subSuffix ≠ type.sendSuffix := by
  cases type <;> decide

theorem EDevice.Created.south_north {d : EDevice} (hcreated : d.Created) :
    d.southTopic = formatTopic d.uid southSuffix ∧ d.northTopic = formatTopic d.uid northSuffix := by
  obtain ⟨env, uid, southUrl, northUrl, cb, type, hcreate⟩ := hcreated
  obtain ⟨-, htype, -, -, hsub, hsend⟩ := eCommonCreate_spec hcreate
  cases type <;> simp only [EDevice.subTopic, EDevice.sendTopic, htype] at hsub hsend
  · exact ⟨hsub, hsend⟩
  · exact ⟨hsend, hsub⟩

/-- The topics of one uid are the same exactly when the buffer ends before the suffixes differ. -/
theorem formatTopic_eq_iff (uid : CStr) {s t : CStr} (hs : s ∈ topicSuffixes)
    (ht : t ∈ topicSuffixes) (hne : s ≠ t) :
    formatTopic uid s = formatTopic uid t ↔ directionRoom < uid.bytes.length := by
  have htwo : ∀ s ∈ topicSuffixes, ∀ t ∈ topicSuffixes, s.bytes.take 2 = t.bytes.take 2 → s = t := by
    decide
  rw [CStr.ext_iff, formatTopic_bytes, formatTopic_bytes, List.take_append, List.take_append,
    List.append_cancel_left_eq]
  constructor
  · intro heq
    by_contra hroom
    apply hne
    apply htwo s hs t ht
    have hle : 2 ≤ topicSize - 1 - uid.bytes.length := by
      simp only [topicSize, directionRoom] at hroom ⊢
      omega
    calc s.bytes.take 2
        = (s.bytes.take (topicSize - 1 - uid.bytes.length)).take 2 := by
          rw [List.take_take, Nat.min_eq_left hle]
      _ = (t.bytes.take (topicSize - 1 - uid.bytes.length)).take 2 := by rw [heq]
      _ = t.bytes.take 2 := by rw [List.take_take, Nat.min_eq_left hle]
  · intro hlong
    have hle : topicSize - 1 - uid.bytes.length ≤ 1 := by
      simp only [topicSize, directionRoom] at hlong ⊢
      omega
    rw [← Nat.min_eq_left hle, ← List.take_take, ← List.take_take, topicSuffixes_take_one s hs,
      topicSuffixes_take_one t ht]

/-- Both topics of a uid have the same length, so one begins the other only when they are one. -/
theorem formatTopic_prefix_iff (uid : CStr) {s t : CStr} (hs : s ∈ topicSuffixes)
    (ht : t ∈ topicSuffixes) (hne : s ≠ t) :
    (formatTopic uid s).bytes <+: (formatTopic uid t).bytes ↔
      directionRoom < uid.bytes.length := by
  rw [← formatTopic_eq_iff uid hs ht hne]
  constructor
  · intro hpre
    apply CStr.ext
    apply hpre.eq_of_length
    rw [formatTopic_length uid hs, formatTopic_length uid ht]
  · intro heq
    exact heq ▸ List.prefix_refl _

/-- A message matches the subscription of a device exactly when the device's topic begins the
sender's. -/
theorem matchesSub_sends {d e : EDevice} (hd : d.Created) (he : e.Created) {calls : List SendCall}
    {m : Msg} (hm : m ∈ (eCommonSends e calls ⟨[]⟩).2.2) :
    matchesSub d.southSub m = true ↔
      (formatTopic d.uid d.type.subSuffix).bytes <+:
        (formatTopic e.uid e.type.sendSuffix).bytes := by
  have hhead := eCommonSends_head e calls ⟨[]⟩ (fun f hf => by cases hf) m hm
  rw [he.topics.2] at hhead
  rw [hd.topics.1]
  exact matchesSub_singleton _ _ hhead

/-- **Direction separation.** The two directions of a uid are kept apart exactly when the uid has at
most 125 bytes. -/
theorem separated_iff (uid : CStr) : Separated uid ↔ uid.bytes.length ≤ directionRoom := by
  have hsouth : southSuffix ∈ topicSuffixes := List.mem_cons_self
  have hnorth : northSuffix ∈ topicSuffixes := List.mem_cons_of_mem _ List.mem_cons_self
  constructor
  · intro hseparated
    by_contra hlong
    have hd := freshDevice_created uid .collector none
    obtain ⟨hs, hn⟩ := hd.south_north
    have hapart := (hseparated.apart _ hd rfl).1
    rw [hs, hn] at hapart
    apply hapart
    exact (formatTopic_prefix_iff uid hsouth hnorth (by decide)).mpr (Nat.lt_of_not_le hlong)
  · intro hshort
    refine ⟨?_, ?_, ?_⟩
    · intro d e hd he hdu heu htype calls m hm
      have hmatch := matchesSub_sends hd he hm
      rw [EDeviceType.subSuffix_of_ne htype, hdu, heu] at hmatch
      exact hmatch.mpr (List.prefix_refl _)
    · intro d e hd he hdu heu htype calls m hm
      rw [Bool.eq_false_iff]
      intro hmatch
      rw [matchesSub_sends hd he hm, hdu, heu, htype,
        formatTopic_prefix_iff uid e.type.subSuffix_mem e.type.sendSuffix_mem
          e.type.subSuffix_ne_sendSuffix] at hmatch
      omega
    · intro d hd hdu
      obtain ⟨hs, hn⟩ := hd.south_north
      rw [hs, hn, hdu, formatTopic_prefix_iff uid hsouth hnorth (by decide),
        formatTopic_prefix_iff uid hnorth hsouth (by decide)]
      omega

/-- A uid of 126 bytes, one more than the buffer has room for. -/
def longUid : CStr where
  bytes := List.replicate 126 97
  nulFree hmem := by cases List.eq_of_mem_replicate hmem

/-- A collector whose uid has 126 bytes gets what it sends itself. -/
theorem separation_counterexample : ∃ d : EDevice, d.Created ∧ d.uid = longUid ∧
    ∃ m ∈ (eCommonSends d [⟨some [1], true, true⟩] ⟨[]⟩).2.2, matchesSub d.southSub m = true := by
  have hd := freshDevice_created longUid .collector none
  have hmem : [(freshDevice longUid .collector none).sendTopic.bytes, [1]] ∈
      (eCommonSends (freshDevice longUid .collector none) [⟨some [1], true, true⟩] ⟨[]⟩).2.2 := by
    simp [eCommonSends, eCommonSend_some]
  have hlong : directionRoom < longUid.bytes.length := by
    rw [longUid, List.length_replicate]
    decide
  refine ⟨_, hd, rfl, _, hmem, ?_⟩
  rw [matchesSub_sends hd hd hmem]
  exact (formatTopic_prefix_iff longUid (EDeviceType.subSuffix_mem _)
    (EDeviceType.sendSuffix_mem _) (EDeviceType.subSuffix_ne_sendSuffix _)).mpr hlong

end LibEzmb
