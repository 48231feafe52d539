import EmergencyNet.Lib.Machine
import EmergencyNet.Base.BoundedSeq
import EmergencyNet.Net.EmergencyConn
import EmergencyNet.Net.FullBuffer
import EmergencyNet.Gui.FireEvents
import EmergencyNet.Gui.Station
import EmergencyNet.Gui.SetupSensorGUI
import EmergencyNet.Conn.AckFrame
import EmergencyNet.Conn.Acknowledged
import EmergencyNet.Conn.Awaited
import EmergencyNet.Conn.Floods
import EmergencyNet.Conn.Frames
import EmergencyNet.Conn.Heard
import EmergencyNet.Conn.Integrity
import EmergencyNet.Conn.Mesh
import EmergencyNet.Conn.Retransmission
import EmergencyNet.Conn.Stalls
import EmergencyNet.Routing.ExactChoice
import EmergencyNet.Routing.PathFormation
import EmergencyNet.Safety.Announcement
import EmergencyNet.Safety.BestPointer
import EmergencyNet.Safety.BlinkPhase
import EmergencyNet.Safety.Fire
import EmergencyNet.Safety.NeighborBound
import EmergencyNet.Safety.Reset
import EmergencyNet.Safety.RunningLight
import EmergencyNet.Sensor.Alarms
import EmergencyNet.Sensor.Capacity
import EmergencyNet.Sensor.Malformed
import EmergencyNet.Sensor.NeighborTable
import EmergencyNet.Sensor.SilentNeighbors
import EmergencyNet.Sensor.Spreading
import EmergencyNet.Sensor.TimesynchOn
import EmergencyNet.Timesynch.Leader
import EmergencyNet.Timesynch.Median
import EmergencyNet.Timesynch.Sniffer
import EmergencyNet.App.Traffic
import EmergencyNet.Lib.LastWord
import EmergencyNet.Safety.BurningCoordinates
import EmergencyNet.Sensor.Numbering
import EmergencyNet.Sensor.RollCall
import EmergencyNet.Timesynch.Agreement
import EmergencyNet.Sensor.WaysOut
