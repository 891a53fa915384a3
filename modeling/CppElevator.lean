import CppElevator.Ride
import CppElevator.Verif.Assignees
import CppElevator.Verif.CabLockstep
import CppElevator.Verif.CabRecovery
import CppElevator.Verif.CabWriter
import CppElevator.Verif.Counters
import CppElevator.Verif.Custody
import CppElevator.Verif.Deadlines
import CppElevator.Verif.Dispatch
import CppElevator.Verif.FailureDetector
import CppElevator.Verif.FleetRefinement
import CppElevator.Verif.Gossip
import CppElevator.Verif.HallCalls
import CppElevator.Verif.HallLifecycle
import CppElevator.Verif.Heartbeats
import CppElevator.Verif.LiveAssignees
import CppElevator.Verif.LoneNode
import CppElevator.Verif.NeverAborts
import CppElevator.Verif.ObservationMask
import CppElevator.Verif.OrderTimeouts
import CppElevator.Verif.PacketValidity
import CppElevator.Verif.PendingRequests
import CppElevator.Verif.QuietSteps
import CppElevator.Verif.Readoption
import CppElevator.Verif.Reassignments
import CppElevator.Verif.RideTurns
import CppElevator.Verif.Rides
import CppElevator.Verif.ServedFloors
import CppElevator.Verif.Service
import CppElevator.Verif.ShaftEnds
import CppElevator.Verif.SilentNodes
import CppElevator.Verif.StaleEchoes
import CppElevator.Verif.StopButton
import CppElevator.Verif.Sweeps
import CppElevator.Verif.UsableFirst
