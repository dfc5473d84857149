import RdmaExps.Transfer.Completion

namespace RdmaExps.Transfer

open RdmaExps.Python RdmaExps.Verbs RdmaExps.Wire RdmaExps.Run

variable {setup : Setup} {turn : Turn} {late : Bool} {s t : State}

end RdmaExps.Transfer
