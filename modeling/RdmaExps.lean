import RdmaExps.Segments.Names
import RdmaExps.Segments.Points
import RdmaExps.Segments.Ticks
import RdmaExps.Measure.PingLoss
import RdmaExps.Measure.PingOrder
import RdmaExps.Measure.DstatSum
import RdmaExps.Cluster.Endpoints
import RdmaExps.Cluster.Kill
import RdmaExps.Cluster.Numsegs
import RdmaExps.Cluster.Incast
import RdmaExps.Experiment.Roles
import RdmaExps.Experiment.Resume
import RdmaExps.Experiment.Ports
import RdmaExps.Experiment.Figure
import RdmaExps.Experiment.Leftovers
import RdmaExps.Transfer.Hazards
import RdmaExps.Pingpong.Ends
import RdmaExps.Pingpong.Exchange
import RdmaExps.Intf.Exchange
import RdmaExps.Intf.Pair
import RdmaExps.ReadWrite.Ends
